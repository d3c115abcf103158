/-
# Values that callers hand in

Settings and data arrive as values of any kind: nothing, booleans, numbers, text,
sequences, records, arrays of one element type, columns with names, and functions
that measure a pair of points. This module names the kinds and says which values
count as true; everything else about them is decided by the modules that read
them.
-/

import PointPattern.Number.Binary

namespace PointPattern

/-- The type that the elements of an array have in common. -/
inductive ElementType where
  | boolean
  | signed (bits : Nat)
  | unsigned (bits : Nat)
  | real (bits : Nat)
  | complex (bits : Nat)
  | text (width : Nat)
  | object
  deriving DecidableEq, Repr

/-- The type of doubles, in which all computation is done. -/
abbrev ElementType.double : ElementType := .real 64

/-- The type of the extended numbers, which are wider than doubles. -/
abbrev ElementType.wide : ElementType := .real 128

/-- The binary format of a real element type. -/
def ElementType.format : ElementType → Number.Format
  | .real 16 => .binary16
  | .real 32 => .binary32
  | .real 128 => .binary80
  | _ => .binary64

/-- The name of an element type as messages show it. -/
def ElementType.name : ElementType → String
  | .boolean => "bool"
  | .signed bits => "int" ++ toString bits
  | .unsigned bits => "uint" ++ toString bits
  | .real bits => "float" ++ toString bits
  | .complex bits => "complex" ++ toString bits
  | .text width => "<U" ++ toString width
  | .object => "object"

/-- The name of the scalars of an element type. -/
def ElementType.scalarName : ElementType → String
  | .real 128 => "longdouble"
  | type => type.name

/-- A function of two points that a caller may use as a metric. -/
inductive PairFunction where
  /-- The greatest absolute difference of two coordinates. -/
  | greatestGap
  /-- The sum of the differences, which may be negative. -/
  | signedGap
  deriving DecidableEq, Repr

/-- A value of any kind. -/
inductive Value where
  | null
  | bool (b : Bool)
  | int (i : Int)
  | real (x : Float)
  /-- A number in extended precision. -/
  | extended (x : Number.Binary)
  | complex (re im : Float)
  | text (s : String)
  /-- A scalar that carries an element type of its own. -/
  | sized (type : ElementType) (scalar : Value)
  | list (items : List Value)
  | tuple (items : List Value)
  | record (fields : List (String × Value))
  /-- Elements of one type in row-major order. -/
  | array (type : ElementType) (shape : List Nat) (cells : List Value)
  /-- A single column whose element type is inferred from its entries. -/
  | series (column : Value)
  /-- Columns with names, in order. -/
  | frame (columns : List (String × Value))
  | measure (f : PairFunction)
  deriving Repr, Inhabited

namespace Value

/-- The name of the kind of a value as messages show it. -/
def typeName : Value → String
  | null => "NoneType"
  | bool _ => "bool"
  | int _ => "int"
  | real _ => "float"
  | extended _ => ElementType.wide.scalarName
  | complex _ _ => "complex"
  | text _ => "str"
  | sized type _ => type.scalarName
  | list _ => "list"
  | tuple _ => "tuple"
  | record _ => "dict"
  | array _ _ _ => "ndarray"
  | series _ => "Series"
  | frame _ => "DataFrame"
  | measure _ => "function"

/-- Whether a value counts as true: everything but nothing itself, zeros and
what is empty. -/
def isTrue : Value → Bool
  | null => false
  | bool b => b
  | int i => i != 0
  | real x => x != 0
  | extended x => !x.isZero
  | complex re im => re != 0 || im != 0
  | text s => s != ""
  | sized _ v => v.isTrue
  | list items => !items.isEmpty
  | tuple items => !items.isEmpty
  | record fields => !fields.isEmpty
  | array _ _ cells => !cells.isEmpty
  | series _ => true
  | frame _ => true
  | measure _ => true

/-- Whether a value is absent. -/
def isNull : Value → Bool
  | null => true
  | _ => false

/-- The integer that a value of an integral kind holds. Truth values are not of
an integral kind. -/
def integral? : Value → Option Int
  | int i => some i
  | sized (.signed _) (int i) => some i
  | sized (.unsigned _) (int i) => some i
  | _ => none

/-- The text of a value of that kind. -/
def text? : Value → Option String
  | text s => some s
  | _ => none

/-- The number in extended precision that a value is. -/
def extended? : Value → Option Number.Binary
  | extended x => some x
  | sized _ v => v.extended?
  | _ => none

/-- Whether a value is a number equal to one. Truth counts as one. -/
def isOne : Value → Bool
  | bool b => b
  | int i => i == 1
  | real x => x == 1
  | extended x => x.isOne
  | complex re im => re == 1 && im == 0
  | sized _ v => v.isOne
  | _ => false

/-- The entry of a record under a name. -/
def field? (name : String) : List (String × Value) → Option Value :=
  List.lookup name

end Value

end PointPattern
