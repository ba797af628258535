/-!
# Kinds of names

A name in a type says more than its letters: `Int64` and `Numeric` are numbers, `Date`
is a date, and a name that is not known refers to a declaration. The kind of a name is
settled once, when the name is put into a type, and validators go by the kind alone.
-/

namespace SchemaTypes

/-- What a validator checks where a name stands. -/
inductive Kind
  | unknown
  | boolean
  | date
  | null
  | number
  | string
  | undefined
  | reference
  deriving DecidableEq, Repr

namespace Kind

/-- The kinds and their names. -/
def names : List (String × Kind) :=
  [("unknown", .unknown), ("boolean", .boolean), ("date", .date), ("null", .null),
   ("number", .number), ("string", .string), ("undefined", .undefined),
   ("reference", .reference)]

/-- The name of a kind. -/
def name : Kind → String
  | .unknown => "unknown"
  | .boolean => "boolean"
  | .date => "date"
  | .null => "null"
  | .number => "number"
  | .string => "string"
  | .undefined => "undefined"
  | .reference => "reference"

/-- The names whose kind is known, apart from the decimals. -/
def known : List (String × Kind) :=
  [("Object", .unknown), ("Json", .unknown),
   ("boolean", .boolean), ("Boolean", .boolean),
   ("Date", .date), ("Date32", .date), ("DateTime", .date), ("DateTime64", .date),
   ("Timestamp", .date),
   ("null", .null), ("Nullable", .null),
   ("Int8", .number), ("Int16", .number), ("Int32", .number), ("Int64", .number),
   ("Int128", .number), ("Int256", .number),
   ("UInt8", .number), ("UInt16", .number), ("UInt32", .number), ("UInt64", .number),
   ("UInt128", .number), ("UInt256", .number),
   ("number", .number), ("Numeric", .number),
   ("string", .string), ("String", .string),
   ("undefined", .undefined)]

/-- Every name with this word in it is a decimal number. -/
def decimalWord : List Char := ['D', 'e', 'c', 'i', 'm', 'a', 'l']

/-- Whether that word stands anywhere in the text. -/
def speaksOfDecimals : List Char → Bool
  | [] => false
  | c :: cs => decimalWord.isPrefixOf (c :: cs) || speaksOfDecimals cs

/-- The kind of a name: a number if it speaks of decimals, as listed if it is known, and
otherwise a reference. Capitals and small letters differ. -/
def classify (name : String) : Kind :=
  if speaksOfDecimals name.toList then .number
  else (known.lookup name).getD .reference

end Kind

end SchemaTypes
