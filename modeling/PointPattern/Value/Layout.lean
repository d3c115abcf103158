/-
# Values laid out as tables

A nested sequence becomes a table if all sequences on one level have the same
shape. Its elements get the narrowest type that holds them all: booleans among
themselves, integers, real numbers, complex numbers, text, and the type of
objects for everything that is not a number or a text.
-/

import PointPattern.Error
import PointPattern.Grid
import PointPattern.Value.Reading

namespace PointPattern

open Number

/-- Elements of one type in row-major order and the extents of the axes. -/
structure Table where
  type : ElementType
  shape : List Nat
  cells : List Value

/-! ## Shape -/

/-- Sequences nested more deeply than this have no table. -/
def nestingLimit : Nat := 64

/-- The longest prefix that two shapes share. -/
def sharedPrefix : List Nat → List Nat → List Nat
  | m :: ms, n :: ns => if m = n then m :: sharedPrefix ms ns else []
  | _, _ => []

/-- The shape on which all parts of a value agree, and whether some part goes
beyond it. -/
structure Outline where
  shape : List Nat
  ragged : Bool
  deriving DecidableEq, Repr

/-- The outline of a sequence from those of its items. -/
def Outline.ofItems : List Outline → Outline
  | [] => ⟨[0], false⟩
  | first :: rest =>
    let shared := rest.foldl (fun shape item => sharedPrefix shape item.shape) first.shape
    ⟨(rest.length + 1) :: shared,
      (first :: rest).any fun item => item.ragged || item.shape != shared⟩

namespace Value

/-- The entries of a column. -/
def columnCells : Value → List Value
  | list items => items
  | tuple items => items
  | array type _ cells => cells.map (sized type)
  | series column => column.columnCells
  | v => [v]

/-- The number of rows of a frame is that of its first column. -/
def rowCount : List (String × Value) → Nat
  | [] => 0
  | (_, column) :: _ => column.columnCells.length

mutual

/-- The outline of a value at the given nesting depth. -/
def outline (depth : Nat) : Value → Outline
  | list items =>
    if depth = nestingLimit then ⟨[], true⟩ else .ofItems (outlines (depth + 1) items)
  | tuple items =>
    if depth = nestingLimit then ⟨[], true⟩ else .ofItems (outlines (depth + 1) items)
  | array _ shape _ => ⟨shape, false⟩
  | series column => ⟨[column.columnCells.length], false⟩
  | frame columns => ⟨[rowCount columns, columns.length], false⟩
  | _ => ⟨[], false⟩

/-- The outlines of several values. -/
def outlines (depth : Nat) : List Value → List Outline
  | [] => []
  | v :: rest => outline depth v :: outlines depth rest

end

/-- The shape of the table of a value. -/
def shape? (v : Value) : Except GridError (List Nat) :=
  let o := v.outline 0
  if !o.ragged then .ok o.shape
  else if o.shape.length = nestingLimit then .error (.tooDeep nestingLimit)
  else .error (.ragged o.shape)

/-! ## Elements -/

/-- The element type of a single value. -/
def elementType : Value → ElementType
  | bool _ => .boolean
  | int i =>
    if -(Nat.pow 2 63 : Int) ≤ i && i < (Nat.pow 2 63 : Int) then .signed 64
    else if 0 ≤ i && i < (Nat.pow 2 64 : Int) then .unsigned 64
    else .object
  | real _ => .double
  | extended _ => .wide
  | complex _ _ => .complex 128
  | text s => .text s.length
  | sized type _ => type
  | _ => .object

end Value

namespace ElementType

/-- Whether values of the type are numbers. -/
def isNumeric : ElementType → Bool
  | signed _ | unsigned _ | real _ | complex _ => true
  | _ => false

/-- The number of characters that hold every value of the type. -/
def textWidth : ElementType → Nat
  | boolean => 5
  | signed 8 => 4
  | signed 16 => 6
  | signed 32 => 11
  | signed _ => 21
  | unsigned 8 => 3
  | unsigned 16 => 5
  | unsigned 32 => 10
  | unsigned _ => 20
  | real 128 => 48
  | real _ => 32
  | complex 256 => 96
  | complex _ => 64
  | text width => width
  | object => 0

/-- The real type that holds the integers of the given width without loss where
there is one, and doubles for the widest. -/
def realBitsFor (integerBits : Nat) : Nat :=
  if integerBits ≤ 8 then 16 else if integerBits ≤ 16 then 32 else 64

/-- The narrowest type that holds the values of both types. -/
def join : ElementType → ElementType → ElementType
  | object, _ | _, object => object
  | text a, t => text (max a t.textWidth)
  | t, text b => text (max t.textWidth b)
  | boolean, t | t, boolean => t
  | signed a, signed b => signed (max a b)
  | unsigned a, unsigned b => unsigned (max a b)
  | signed a, unsigned b | unsigned b, signed a =>
    if b < a then signed a else if b < 64 then signed (2 * b) else real 64
  | real a, real b => real (max a b)
  | signed a, real b | real b, signed a | unsigned a, real b | real b, unsigned a =>
    real (max (realBitsFor a) b)
  | complex a, complex b => complex (max a b)
  | complex a, signed b | signed b, complex a | complex a, unsigned b | unsigned b, complex a =>
    complex (max a (2 * max 32 (realBitsFor b)))
  | complex a, real b | real b, complex a => complex (max a (2 * max 32 b))

/-- The type of the elements of a sequence. Without elements they count as
doubles, and text has at least one character. -/
def joinAll : List ElementType → ElementType
  | [] => double
  | first :: rest =>
    match rest.foldl join first with
    | text width => text (max 1 width)
    | type => type

end ElementType

namespace Value

/-! ## Columns -/

/-- The type with which an entry counts in a column: every number has full
width there. -/
def entryType : Value → ElementType
  | sized type _ => match type with
    | .signed _ | .unsigned _ => .signed 64
    | .real _ => .double
    | .complex _ => .complex 128
    | type => type
  | int _ => .signed 64
  | extended _ => .double
  | v => v.elementType

/-- Whether the integers among the entries have a common type of 64 bits, with a
sign or without. -/
def fitsWord (cells : List Value) : Bool :=
  let integers := cells.filterMap integral?
  integers.all (fun i => -(Nat.pow 2 63 : Int) ≤ i && i < (Nat.pow 2 63 : Int)) ||
    integers.all (fun i => 0 ≤ i && i < (Nat.pow 2 64 : Int))

/-- The element type of a column of separate entries. Absent entries among
numbers are missing numbers; truth values do not mix with anything else. Integers
are held as such up to the first absent entry, from where on all numbers are
doubles. -/
def columnType (empty : ElementType) (cells : List Value) : ElementType :=
  let present := (cells.filter fun v => !v.isNull).map entryType
  let missing := present.length < cells.length
  if cells.isEmpty then empty
  else if present.isEmpty then .object
  else if present.all (· = .boolean) then (if missing then .object else .boolean)
  else if present.all ElementType.isNumeric && fitsWord (cells.takeWhile fun v => !v.isNull) then
    (if missing then (ElementType.joinAll present).join .double else .joinAll present)
  else .object

/-- The element type of a column. An array keeps its own. -/
def typeOfColumn (empty : ElementType) : Value → ElementType
  | array type _ _ => type
  | series column => column.typeOfColumn .object
  | v => columnType empty v.columnCells

/-- The common type of two columns: truth values and numbers have none but that
of objects. -/
def joinColumns (a b : ElementType) : ElementType :=
  if a = b then a
  else if a.isNumeric && b.isNumeric then a.join b
  else .object

/-- The common type of the columns of a frame. -/
def typeOfFrame (columns : List (String × Value)) : ElementType :=
  match columns.map fun (_, column) => column.typeOfColumn .double with
  | [] => .double
  | first :: rest => rest.foldl joinColumns first

/-- The entries of a frame row by row. -/
def frameCells (columns : List (String × Value)) : List Value :=
  let entries := columns.map fun (_, column) => column.columnCells
  (List.range (rowCount columns)).flatMap fun i =>
    entries.map fun column => column.getD i .null

mutual

/-- The elements of a value in row-major order. -/
def leaves : Value → List Value
  | list items => leavesOf items
  | tuple items => leavesOf items
  | array type _ cells => cells.map fun v => match v with
    | sized _ _ => v
    | _ => sized type v
  | series column => column.columnCells
  | frame columns => frameCells columns
  | v => [v]

/-- The elements of several values. -/
def leavesOf : List Value → List Value
  | [] => []
  | v :: rest => leaves v ++ leavesOf rest

end

/-! ## Tables -/

/-- The type of the elements of a value. -/
def tableType : Value → ElementType
  | array type _ _ => type
  | series column => column.typeOfColumn .object
  | frame columns => typeOfFrame columns
  | v => .joinAll (v.leaves.map elementType)

/-- The table of a value. -/
def toTable (v : Value) : Except GridError Table := do
  let shape ← v.shape?
  return ⟨v.tableType, shape, v.leaves⟩

/-- The number of elements of the table of a value. -/
def size (v : Value) : Except GridError Nat := do
  return Grid.sizeOf (← v.shape?)

/-- A number as a double; what is missing is not a number. -/
def cellToFloat (v : Value) : Float :=
  match v.toReal? with
  | .ok x => x
  | .error _ => Binary.nan.toFloat

/-- The double that an element of a block of doubles becomes. A missing element
is not a number. -/
def toBlockElement : Value → Except Error Float
  | null => .ok Binary.nan.toFloat
  | v => v.toReal

/-- The block of doubles that a value denotes. -/
def toBlock (v : Value) : Except Error (Grid Float) := do
  let shape ← v.shape?.mapError .grid
  let values ← v.leaves.mapM toBlockElement
  return ⟨shape, values⟩

/-! ## Arrays of a given type -/

/-- A value as a number in extended precision; what is missing is not a number. -/
def toExtended : Value → Binary
  | int i => Format.binary80.ofFraction (i < 0) i.natAbs 1
  | extended x => x
  | text s => (readNumber? .binary80 s).getD .nan
  | sized _ v => v.toExtended
  | v => .ofFloat v.cellToFloat

/-- A value converted to an element type. -/
def convert (type : ElementType) (v : Value) : Value :=
  match type with
  | .boolean => bool v.isTrue
  | .signed _ | .unsigned _ => match v.toInteger? with
    | .ok i => int i
    | .error _ => v
  | .real 128 => extended v.toExtended
  | .real _ => match v.extended? with
    | some x => real (type.format.ofBinary x).nearestDouble
    | none => real (type.format.roundFloat v.cellToFloat)
  | .complex _ => match v with
    | complex _ _ => v
    | _ => complex v.cellToFloat 0
  | .text _ => text v.plain
  | .object => v

/-- The array of the given element type that a value denotes. Text is as wide as
its longest element. -/
def toArray (type : ElementType) (v : Value) : Value :=
  let cells := v.leaves.map (convert type)
  let type := match type with
    | .text _ => .text (cells.foldl (fun width cell => max width cell.plain.length) 1)
    | type => type
  array type (v.outline 0).shape cells

/-- The scalar of the given element type that a value denotes. -/
def toSized (type : ElementType) (v : Value) : Value := sized type (convert type v)

/-- An array of doubles. -/
def ofGrid (g : Grid Float) : Value := array .double g.shape (g.values.map real)

end Value

end PointPattern
