/-!
# Name/Reserved — words that a program may not use as names of its own

Keywords cannot be names at all; a built-in name or a name that generated code refers to would be
hidden by one.
-/

namespace Jigsaw.Name

/-- The keywords. -/
def keywords : List String :=
  ["False", "None", "True", "and", "as", "assert", "async", "await", "break", "class", "continue",
   "def", "del", "elif", "else", "except", "finally", "for", "from", "global", "if", "import", "in",
   "is", "lambda", "nonlocal", "not", "or", "pass", "raise", "return", "try", "while", "with",
   "yield"]

/-- The built-in names. -/
def builtins : List String :=
  ["abs", "all", "any", "ascii", "bin", "bool", "breakpoint", "bytearray", "bytes", "callable",
   "chr", "classmethod", "compile", "complex", "delattr", "dict", "dir", "divmod", "enumerate",
   "eval", "exec", "filter", "float", "format", "frozenset", "getattr", "globals", "hasattr",
   "hash", "help", "hex", "id", "input", "int", "isinstance", "issubclass", "iter", "len", "list",
   "locals", "map", "max", "memoryview", "min", "next", "object", "oct", "open", "ord", "pow",
   "print", "property", "range", "repr", "reversed", "round", "set", "setattr", "slice", "sorted",
   "staticmethod", "str", "sum", "super", "tuple", "type", "vars", "zip", "Exception", "NameError",
   "ValueError"]

/-- The names that generated code refers to. -/
def referenced : List String := ["random", "raw_input", "self"]

/-- All reserved words. -/
def reserved : List String := keywords ++ builtins ++ referenced

end Jigsaw.Name
