import AccessControl.Value

/-!
# Reading records, keywords and maps out of values

A record is declared as an object that names its fields, or as a list of the fields in their order.
Members that are no field are passed over, and so a list must not be longer than the record. A
keyword is declared as its word, or as an object whose one member has the word for its name and is
null.
-/

namespace AccessControl

namespace Value

variable {ν α : Type}

/-- The named fields that a value declares for a record with these fields. -/
def record? (fields : List String) : Value ν → Option (List (String × Value ν))
  | .object members => some members
  | .array items => if items.length ≤ fields.length then some (fields.zip items) else none
  | _ => none

/-- The field of a record as it is declared, or the default if it is not declared. -/
def fieldOr (members : List (String × Value ν)) (name : String) (default : α)
    (read : Value ν → Option α) : Option α :=
  match NameMap.find name members with
  | none => some default
  | some value => read value

/-- The field of a record that has to be declared. -/
def field? (members : List (String × Value ν)) (name : String) (read : Value ν → Option α) :
    Option α :=
  match NameMap.find name members with
  | none => none
  | some value => read value

/-- The truth value that a value is. -/
def bool? : Value ν → Option Bool
  | .bool value => some value
  | _ => none

/-- The text that a value is. -/
def string? : Value ν → Option String
  | .string value => some value
  | _ => none

/-- What a keyword's word stands for. -/
def keyword? (ofWord? : String → Option α) : Value ν → Option α
  | .string word => ofWord? word
  | .object [(word, .null)] => ofWord? word
  | _ => none

/-- The items of a list, all of which have to be read. -/
def list? (read : Value ν → Option α) : Value ν → Option (List α)
  | .array items => items.mapM read
  | _ => none

/-- The members of an object, all of which have to be read. -/
def map? (read : Value ν → Option α) : Value ν → Option (NameMap α)
  | .object members =>
    (members.mapM (fun member => (read member.2).map (fun value => (member.1, value)))).map
      NameMap.ofList
  | _ => none

/-- The list of values. -/
def ofList (write : α → Value ν) (items : List α) : Value ν := .array (items.map write)

/-- The object of a map. -/
def ofNameMap (write : α → Value ν) (map : NameMap α) : Value ν := .ofMap (map.mapValues write)

end Value

end AccessControl
