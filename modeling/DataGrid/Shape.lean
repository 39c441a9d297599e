import DataGrid.Text.LowerCase
import DataGrid.Value.Order

/-!
# Shapes of records

A `Shape` names the members of a record and gives each a `FieldType`.

* `FieldType.equality` and `FieldType.ordering` say by what means the values of a type are compared;
  a `CustomType` declares these means itself.
* `Shape.field?` looks a member up by its exact name, then by the only name that differs in the case
  of ASCII letters.
-/

namespace DataGrid

/-- An enumeration: named integers. -/
structure Enumeration where
  /-- the name of the type -/
  name : String
  /-- the named integers in the order of declaration -/
  members : List (String × Int64)
  deriving DecidableEq

namespace Enumeration

/-- The integer behind a name. -/
def memberValue? (e : Enumeration) (name : String) : Option Int64 := e.members.lookup name

/-- The first name of an integer. -/
def memberName? (e : Enumeration) (value : Int64) : Option String :=
  (e.members.find? fun member => member.2 == value).map Prod.fst

end Enumeration

/-- A type with comparisons of its own. -/
structure CustomType where
  /-- the name of the type -/
  name : String
  /-- whether its values cannot be null unless a member says so -/
  valueType : Bool
  /-- an equality operator -/
  equality? : Option (Value → Value → Bool)
  /-- a relational operator -/
  relational? : Option (Value → Value → Ordering)
  /-- a three-way comparison of values that are not null -/
  compareTo? : Option (Value → Value → Ordering)
  /-- a three-way comparison that places nulls as well -/
  compare? : Option (Value → Value → Ordering)
  /-- the conversion of literals, which may refuse one -/
  convert? : Option (Value → Option Value)

mutual

/-- The type of a member. -/
inductive FieldType where
  /-- truth values -/
  | bool
  /-- integers of 32 bits -/
  | int32
  /-- integers of 64 bits -/
  | int64
  /-- short doubles, which are held as doubles -/
  | float32
  /-- doubles -/
  | float64
  /-- texts -/
  | string
  /-- moments -/
  | dateTime
  /-- spans of time -/
  | span
  /-- identifiers -/
  | uuid
  /-- the integers of an enumeration -/
  | enum (e : Enumeration)
  /-- records of a shape -/
  | object (shape : Shape)
  /-- values of a type with comparisons of its own -/
  | custom (c : CustomType)
  /-- values of any kind, known only when they are read -/
  | dynamic

/-- The members of a record. -/
inductive Shape where
  /-- a shape has a name and members -/
  | mk (name : String) (fields : List Field)

/-- A member of a record. -/
inductive Field where
  /-- a member has a name, a type, and may or may not be null -/
  | mk (name : String) (type : FieldType) (nullable : Bool)

end

namespace Field

/-- The name of a member. -/
def name : Field → String
  | mk n _ _ => n

/-- The type of a member. -/
def type : Field → FieldType
  | mk _ t _ => t

/-- Whether a member may be null. -/
def nullable : Field → Bool
  | mk _ _ n => n

end Field

namespace Shape

/-- The name of a shape. -/
def name : Shape → String
  | mk n _ => n

/-- The members of a shape in the order of declaration. -/
def fields : Shape → List Field
  | mk _ fields => fields

/-- The member with a name, or the only one whose name differs in the case of ASCII letters. -/
def field? (s : Shape) (name : String) : Option Field :=
  match s.fields.find? fun f => f.name == name with
  | some f => some f
  | none =>
    match s.fields.filter fun f => Text.sameIgnoringAsciiCase f.name name with
    | [only] => some only
    | _ => none

end Shape

/-- The means by which values of a type are told equal. -/
inductive EqualityMeans where
  /-- the equality of values -/
  | native
  /-- an operator of the type -/
  | operator (eq : Value → Value → Bool)
  /-- none of its own -/
  | none

/-- The means by which values of a type are ordered. -/
inductive OrderingMeans where
  /-- the order of values -/
  | native
  /-- the order of the integers behind an enumeration -/
  | underlying
  /-- a relational operator of the type -/
  | operator (cmp : Value → Value → Ordering)
  /-- a three-way comparison of values that are not null -/
  | compareTo (cmp : Value → Value → Ordering)
  /-- a three-way comparison that places nulls as well -/
  | staticCompare (cmp : Value → Value → Ordering)
  /-- none -/
  | none

namespace FieldType

/-- The name of a type. -/
def name : FieldType → String
  | bool => "bool"
  | int32 => "int32"
  | int64 => "int64"
  | float32 => "float32"
  | float64 => "float64"
  | string => "string"
  | dateTime => "datetime"
  | span => "duration"
  | uuid => "uuid"
  | enum e => e.name
  | object s => s.name
  | custom c => c.name
  | dynamic => "dynamic"

/-- Whether the values are texts. -/
def isText : FieldType → Bool
  | string => true
  | _ => false

/-- Whether the kind of the values is known only when they are read. -/
def isDynamic : FieldType → Bool
  | dynamic => true
  | _ => false

/-- Whether every member of the type may be null. -/
def admitsNull : FieldType → Bool
  | string | object _ | dynamic => true
  | custom c => !c.valueType
  | _ => false

/-- Whether the type has sums with a zero of their own. -/
def hasSums : FieldType → Bool
  | int32 | int64 | float32 | float64 | span => true
  | _ => false

/-- The natural order, level where it places nothing. -/
def naturalOrder (a b : Value) : Ordering := (Value.compare? a b).getD .eq

/-- The order of texts, nulls first. -/
def textOrder : Value → Value → Ordering
  | .null, .null => .eq
  | .null, _ => .lt
  | _, .null => .gt
  | a, b => naturalOrder a b

/-- The means by which values of the type are told equal. -/
def equality : FieldType → EqualityMeans
  | object _ => .none
  | custom c =>
    match c.equality? with
    | some eq => .operator eq
    | none => .none
  | _ => .native

/-- The means by which values of the type are ordered. A custom type uses the first of its
relational operator, the comparison of its values, and the comparison that places nulls; the second
only if it is a value type. -/
def ordering : FieldType → OrderingMeans
  | int32 | int64 | float32 | float64 | dateTime | span | dynamic => .native
  | enum _ => .underlying
  | bool | uuid => .compareTo naturalOrder
  | string => .staticCompare textOrder
  | object _ => .none
  | custom c =>
    match c.relational?, c.valueType, c.compareTo?, c.compare? with
    | some cmp, _, _, _ => .operator cmp
    | none, true, some cmp, _ => .compareTo cmp
    | none, _, _, some cmp => .staticCompare cmp
    | none, _, _, none => .none

/-- Whether values of the type have a least and a greatest one. -/
def hasOrder (t : FieldType) : Bool :=
  match t.ordering with
  | .none => false
  | _ => true

mutual

/-- Sameness of two types. Custom types are told apart by name and by whether they are value
types. -/
def same : FieldType → FieldType → Bool
  | bool, bool | int32, int32 | int64, int64 | float32, float32 | float64, float64
  | string, string | dateTime, dateTime | span, span | uuid, uuid | dynamic, dynamic => true
  | enum a, enum b => a == b
  | object (.mk n fs), object (.mk m gs) => n == m && sameFields fs gs
  | custom a, custom b => a.name == b.name && a.valueType == b.valueType
  | _, _ => false

/-- Sameness of two lists of members. -/
def sameFields : List Field → List Field → Bool
  | [], [] => true
  | .mk n t u :: fs, .mk m v w :: gs => n == m && t.same v && u == w && sameFields fs gs
  | _, _ => false

end

end FieldType

namespace Field

/-- A member that may be null only if its type lets every member be null. -/
def plain (name : String) (type : FieldType) : Field := mk name type type.admitsNull

end Field

end DataGrid
