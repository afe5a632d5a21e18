/-!
# MessageCatalog.Bundle.Resource -- the scripts that come with the library

The template of a module and the functions that compiled messages call. Both are texts that are
written out as they are; a project can bring its own in their place.
-/

namespace MessageCatalog.Bundle

/-- The template of a module. -/
def packagedTemplate : String := String.intercalate "\n" [
  "/* Generated file, do not edit: run the build task instead. */",
  "(function (root) \x7b",
  "    'use strict';",
  "    var MessageFormat = \x7blocale: \x7b\x7d\x7d;",
  "$message_format_shared",
  "$message_format_locale",
  "    root.$locale_name = root.$locale_name || \x7b\x7d;",
  "    root.$locale_name['$locale'] = $translations;",
  "\x7d(typeof window !== 'undefined' ? window : this));",
  ""]

/-- The functions that compiled messages call. -/
def packagedRuntime : String := String.intercalate "\n" [
  "/*",
  " * Shared runtime for precompiled messages.",
  " *",
  " * Expects a MessageFormat object in scope with a \"locale\" map of plural rule",
  " * functions: MessageFormat.locale[lc](n, ordinal) -> CLDR category.",
  " */",
  "MessageFormat.hasOwn = function (object, key) \x7b",
  "    return Object.prototype.hasOwnProperty.call(object, key);",
  "\x7d;",
  "",
  "MessageFormat.arg = function (d, k) \x7b",
  "    if (!d || !MessageFormat.hasOwn(d, k)) \x7b",
  "        throw new Error('MessageFormat: argument \"' + k + '\" is missing');",
  "    \x7d",
  "    return d[k];",
  "\x7d;",
  "",
  "MessageFormat.tag = function (lc) \x7b",
  "    return String(lc).replace(/_/g, '-');",
  "\x7d;",
  "",
  "MessageFormat.rule = function (lc) \x7b",
  "    return MessageFormat.locale[lc] ||",
  "        MessageFormat.locale[String(lc).split('_')[0]] ||",
  "        function () \x7b",
  "            return 'other';",
  "        \x7d;",
  "\x7d;",
  "",
  "// \x7bk\x7d",
  "MessageFormat.v = function (d, k) \x7b",
  "    return String(MessageFormat.arg(d, k));",
  "\x7d;",
  "",
  "// # inside a plural case",
  "MessageFormat.n = function (n) \x7b",
  "    return String(n);",
  "\x7d;",
  "",
  "// \x7bk, select, ...\x7d",
  "MessageFormat.s = function (d, k, cases) \x7b",
  "    var key = String(MessageFormat.arg(d, k));",
  "    return (MessageFormat.hasOwn(cases, key) ? cases[key] : cases.other)();",
  "\x7d;",
  "",
  "// \x7bk, plural, ...\x7d and \x7bk, selectordinal, ...\x7d",
  "MessageFormat.p = function (d, k, offset, lc, ordinal, cases) \x7b",
  "    var value = Number(MessageFormat.arg(d, k)),",
  "        n,",
  "        category;",
  "    if (isNaN(value)) \x7b",
  "        throw new Error('MessageFormat: argument \"' + k + '\" is not a number');",
  "    \x7d",
  "    n = value - offset;",
  "    if (MessageFormat.hasOwn(cases, '=' + value)) \x7b",
  "        return cases['=' + value](n);",
  "    \x7d",
  "    category = MessageFormat.rule(lc)(n, ordinal);",
  "    return (MessageFormat.hasOwn(cases, category) ? cases[category] : cases.other)(n);",
  "\x7d;",
  "",
  "// \x7bk, type\x7d and \x7bk, type, style\x7d",
  "MessageFormat.f = function (d, k, type, style, lc) \x7b",
  "    var value = MessageFormat.arg(d, k),",
  "        formatter = MessageFormat.formatters[type];",
  "    return String(formatter ? formatter(value, style, lc) : value);",
  "\x7d;",
  "",
  "MessageFormat.formatters = \x7b",
  "    number: function (value, style, lc) \x7b",
  "        var options = \x7b\x7d;",
  "        if (typeof Intl === 'undefined') \x7b",
  "            return value;",
  "        \x7d",
  "        if (style === 'integer') \x7b",
  "            options.maximumFractionDigits = 0;",
  "        \x7d else if (style === 'percent') \x7b",
  "            options.style = 'percent';",
  "        \x7d",
  "        return new Intl.NumberFormat(MessageFormat.tag(lc), options).format(value);",
  "    \x7d,",
  "    date: function (value, style, lc) \x7b",
  "        if (typeof Intl === 'undefined') \x7b",
  "            return value;",
  "        \x7d",
  "        return new Intl.DateTimeFormat(",
  "            MessageFormat.tag(lc),",
  "            \x7bdateStyle: style || 'medium'\x7d",
  "        ).format(new Date(value));",
  "    \x7d,",
  "    time: function (value, style, lc) \x7b",
  "        if (typeof Intl === 'undefined') \x7b",
  "            return value;",
  "        \x7d",
  "        return new Intl.DateTimeFormat(",
  "            MessageFormat.tag(lc),",
  "            \x7btimeStyle: style || 'medium'\x7d",
  "        ).format(new Date(value));",
  "    \x7d",
  "\x7d;",
  ""]

end MessageCatalog.Bundle
