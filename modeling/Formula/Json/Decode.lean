import Formula.Integer
import Formula.Json.Reader

/-!
# Decoding records

A record is written as an object, or as the array of its values in order, from
the end of which optional ones may be left out.  Some records refuse members
that they do not know.
-/

namespace Formula.Json

/-- Why a text does not have the form that is asked for. -/
inductive Mismatch where
  | malformed
  | expected (what : String)
  | missing (field : String)
  | repeated (field : String)
  | unknown (field : String)
  deriving DecidableEq

def Mismatch.message : Mismatch → String
  | .malformed => "不是有效的 JSON"
  | .expected what => s!"此处应为{what}"
  | .missing field => s!"缺少字段 `{field}`"
  | .repeated field => s!"字段 `{field}` 重复"
  | .unknown field => s!"未知字段 `{field}`"

def parse (text : String) : Except Mismatch Json :=
  match read? text with
  | some value => .ok value
  | none => .error .malformed

def asBool : Json → Except Mismatch Bool
  | .bool value => .ok value
  | _ => .error (.expected "布尔值")

def asInt32 : Json → Except Mismatch Int32
  | .integer value =>
    match int32? value with
    | some word => .ok word
    | none => .error (.expected " 32 位整数")
  | _ => .error (.expected " 32 位整数")

/-- A count of at most sixty-four bits. -/
def asCount : Json → Except Mismatch Nat
  | .integer value =>
    if 0 ≤ value ∧ value ≤ 18446744073709551615 then .ok value.toNat
    else .error (.expected "计数")
  | _ => .error (.expected "计数")

def asString : Json → Except Mismatch String
  | .string (some text) => .ok text
  | _ => .error (.expected "字符串")

def asList {α : Type} (item : Json → Except Mismatch α) :
    Json → Except Mismatch (List α)
  | .array items => items.mapM item
  | _ => .error (.expected "数组")

/-- The entries of a table; a repeated key stays repeated. -/
def asEntries {α : Type} (entry : Json → Except Mismatch α) :
    Json → Except Mismatch (List (String × α))
  | .object members => members.mapM fun (key, value) => do
    return (← asString (.string key), ← entry value)
  | _ => .error (.expected "对象")

/-- One of several words, which may also be written as the key of a null. -/
def asWord {α : Type} (words : List (String × α)) (value : Json) :
    Except Mismatch α :=
  let word? : Option String :=
    match value with
    | .string word => word
    | .object [(word, .null)] => word
    | _ => none
  match word?.bind fun word => words.lookup word with
  | some meaning => .ok meaning
  | none => .error (.expected (" " ++ " | ".intercalate (words.map Prod.fst)))

/-- The members of a record that has only some fields. -/
def knownMembers (fields : List String) (closed : Bool) :
    List (Option String × Json) → Except Mismatch (List (String × Json))
  | [] => .ok []
  | (none, _) :: _ => .error (.expected "字符串")
  | (some key, value) :: rest => do
    let known ← knownMembers fields closed rest
    if key ∈ fields then
      if (known.lookup key).isSome then throw (.repeated key)
      else return (key, value) :: known
    else if closed then throw (.unknown key)
    else return known

/-- The values of the fields that a record gives. -/
def asRecord (fields : List String) (closed : Bool) :
    Json → Except Mismatch (List (String × Json))
  | .array items =>
    if items.length ≤ fields.length then .ok (fields.zip items)
    else .error (.expected "更短的数组")
  | .object members => knownMembers fields closed members
  | _ => .error (.expected "对象")

def field {α : Type} (members : List (String × Json)) (name : String)
    (decode : Json → Except Mismatch α) : Except Mismatch α :=
  match members.lookup name with
  | some value => decode value
  | none => .error (.missing name)

/-- A field that may be left out. -/
def field? {α : Type} (members : List (String × Json)) (name : String)
    (decode : Json → Except Mismatch α) : Except Mismatch (Option α) :=
  match members.lookup name with
  | some value => (decode value).map some
  | none => .ok none

/-- A value for which null stands for nothing. -/
def asNullable {α : Type} (decode : Json → Except Mismatch α) :
    Json → Except Mismatch (Option α)
  | .null => .ok none
  | value => (decode value).map some

end Formula.Json
