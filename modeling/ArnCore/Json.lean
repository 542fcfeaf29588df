import ArnCore.Collections.OrderedMap
import ArnCore.Interaction.Action
import Mathlib.Algebra.Order.Ring.Int

/-!
# JSON values

`nlohmann::json` as far as the repository uses it.  Accessors follow the
documented behaviour of the library, including the exceptions they throw.
Parsing and serializing text are parameters: the development relies on nothing
about them beyond what a statement says.
-/

namespace ArnCore

open ArnCore.Collections
open ArnCore.Interaction

/--
A JSON value.  Integers of either signedness are one case; a finite
floating-point number is `mantissa * 2 ^ exponent`.
-/
inductive Json where
  | null
  | bool (value : Bool)
  | integer (value : Int)
  | float (mantissa exponent : Int)
  | string (value : String)
  | array (items : List Json)
  | object (members : List (String × Json))
deriving Repr, Inhabited

namespace Json

/-- `{{key, value}, ...}`: an object with its members in key order. -/
def ofMembers (members : List (String × Json)) : Json :=
  .object (members.foldl (fun sorted member =>
    OrderedMap.insert member.1 member.2 sorted) [])

/-- `type_name()` -/
def typeName : Json → String
  | .null => "null"
  | .bool _ => "boolean"
  | .integer _ => "number"
  | .float _ _ => "number"
  | .string _ => "string"
  | .array _ => "array"
  | .object _ => "object"

def typeError (id : Nat) (message : String) : Exception :=
  .standard ("[json.exception.type_error." ++ toString id ++ "] " ++ message)

/-- `find(key)`; values that are no objects have no members. -/
def find? (value : Json) (key : String) : Option Json :=
  match value with
  | .object members => OrderedMap.find? key members
  | _ => none

/-- `contains(key)` -/
def contains (value : Json) (key : String) : Bool :=
  (value.find? key).isSome

/-- `at(key)` -/
def atKey (value : Json) (key : String) : Except Exception Json :=
  match value with
  | .object members =>
      match OrderedMap.find? key members with
      | some member => .ok member
      | none =>
          .error (.standard
            ("[json.exception.out_of_range.403] key '" ++ key
              ++ "' not found"))
  | other =>
      .error (typeError 304 ("cannot use at() with " ++ other.typeName))

/-- `value(key, fallback)` converted by `convert`. -/
def valueOr {Result : Type}
    (convert : Json → Except Exception Result)
    (value : Json) (key : String) (fallback : Result) :
    Except Exception Result :=
  match value with
  | .object members =>
      match OrderedMap.find? key members with
      | some member => convert member
      | none => .ok fallback
  | other =>
      .error (typeError 306 ("cannot use value() with " ++ other.typeName))

/-- `get<std::string>()` -/
def getString : Json → Except Exception String
  | .string value => .ok value
  | other =>
      .error (typeError 302
        ("type must be string, but is " ++ other.typeName))

/-- `static_cast<unsigned>` of a number truncated towards zero. -/
def toUnsigned (value : Int) : Nat :=
  (value % 2 ^ 32).toNat

/-- The integer part of `mantissa * 2 ^ exponent`. -/
def truncate (mantissa exponent : Int) : Int :=
  if 0 ≤ exponent then
    mantissa * 2 ^ exponent.toNat
  else
    mantissa.tdiv (2 ^ (-exponent).toNat)

/-- `get<unsigned>()` -/
def getUnsigned : Json → Except Exception Nat
  | .integer value => .ok (toUnsigned value)
  | .float mantissa exponent => .ok (toUnsigned (truncate mantissa exponent))
  | .bool value => .ok value.toNat
  | other =>
      .error (typeError 302
        ("type must be number, but is " ++ other.typeName))

/-- `value[key] = member`; a null value becomes an object first. -/
def assign (value : Json) (key : String) (member : Json) :
    Except Exception Json :=
  match value with
  | .null => .ok (.object [(key, member)])
  | .object members => .ok (.object (OrderedMap.insert key member members))
  | other =>
      .error (typeError 305
        ("cannot use operator[] with a string argument with "
          ++ other.typeName))

/-- The values a range-based `for` visits. -/
def elements : Json → List Json
  | .null => []
  | .array items => items
  | .object members => members.map Prod.snd
  | other => [other]

/-- `is_object()` -/
def isObject : Json → Bool
  | .object _ => true
  | _ => false

@[simp]
theorem find?_object (members : List (String × Json)) (key : String) :
    (Json.object members).find? key = OrderedMap.find? key members := rfl

theorem atKey_object {members : List (String × Json)} {key : String} {value : Json}
    (found : OrderedMap.find? key members = some value) :
    (Json.object members).atKey key = .ok value := by
  simp [Json.atKey, found]

/-- A member that was read is a member. -/
theorem find?_of_atKey {value member : Json} {key : String}
    (read : value.atKey key = .ok member) : value.find? key = some member := by
  cases value with
  | object members =>
      rw [find?_object]
      rw [atKey] at read
      cases found : OrderedMap.find? key members with
      | none =>
          rw [found] at read
          cases read
      | some found' =>
          rw [found] at read
          cases read
          rfl
  | _ => cases read

/-- The members of a document that was built member by member: the last wins. -/
theorem find?_ofMembers {members : List (String × Json)} {key : String} :
    (ofMembers members).find? key = OrderedMap.find? key members.reverse := by
  have collected : ∀ members : List (String × Json),
      OrderedMap.find? key (members.reverse.foldl (fun sorted member =>
        OrderedMap.insert member.1 member.2 sorted) []) =
        OrderedMap.find? key members := by
    intro members
    induction members with
    | nil => rfl
    | cons member members induction =>
        rw [List.reverse_cons, List.foldl_append, List.foldl_cons,
          List.foldl_nil, OrderedMap.find?_insert, induction,
          OrderedMap.find?_cons]
  have found := collected members.reverse
  rwa [List.reverse_reverse] at found

theorem contains_ofMembers {members : List (String × Json)} {key : String} :
    (ofMembers members).contains key = true ↔
      ∃ member ∈ members, member.1 = key := by
  rw [contains, find?_ofMembers, Option.isSome_iff_ne_none, ne_eq,
    OrderedMap.find?_eq_none_iff]
  simp

@[simp]
theorem getString_string (value : String) :
    (Json.string value).getString = .ok value := rfl

theorem eq_of_getString {value : Json} {text : String}
    (read : value.getString = .ok text) : value = .string text := by
  cases value with
  | string found =>
      cases read
      rfl
  | _ => cases read

end Json

/-! ## Texts -/

/-- Parsing and serializing, as the library provides them. -/
structure JsonText where
  parse : String → Except Exception Json
  dump : Json → Except Exception String

namespace Json

/-- A character inside a string; only control characters are escaped. -/
def escaped (character : Char) : String :=
  match character.toNat with
  | 8 => "\\b"
  | 9 => "\\t"
  | 10 => "\\n"
  | 12 => "\\f"
  | 13 => "\\r"
  | 34 => "\\\""
  | 92 => "\\\\"
  | code =>
      if code < 32 then
        "\\u00" ++
          String.ofList [Nat.digitChar (code / 16), Nat.digitChar (code % 16)]
      else
        character.toString

def quoted (text : String) : String :=
  "\"" ++ String.join (text.toList.map escaped) ++ "\""

mutual

/-- `dump()`: one line without blanks.  Fractions are cut off here. -/
def compact : Json → String
  | .null => "null"
  | .bool value => if value then "true" else "false"
  | .integer value => toString value
  | .float mantissa exponent => toString (truncate mantissa exponent) ++ ".0"
  | .string value => quoted value
  | .array items => "[" ++ compactItems items ++ "]"
  | .object members => "\x7b" ++ compactMembers members ++ "\x7d"

def compactItems : List Json → String
  | [] => ""
  | [item] => item.compact
  | item :: items => item.compact ++ "," ++ compactItems items

def compactMembers : List (String × Json) → String
  | [] => ""
  | [member] => compactMember member
  | member :: members => compactMember member ++ "," ++ compactMembers members

def compactMember : String × Json → String
  | (key, value) => quoted key ++ ":" ++ value.compact

end

example :
    (Json.object
      [("a", .array [.null, .integer (-1), .string "\"\n"]),
        ("b", .object [("c", .bool true)])]).compact =
      "\x7b\"a\":[null,-1,\"\\\"\\n\"],\"b\":\x7b\"c\":true\x7d\x7d" := by
  decide +kernel

theorem compact_object_nil : (object []).compact = "\x7b\x7d" := by
  decide +kernel

end Json

/-- A text, and a value that is printed as it. -/
structure Document where
  text : String
  value : Json
  printed : value.compact = text

/-- A value with the text it is printed as. -/
def Document.ofValue (value : Json) : Document where
  text := value.compact
  value := value
  printed := rfl

/-- A library that prints every value, and reads the documents it knows. -/
def JsonText.knowing (documents : List Document) : JsonText where
  parse text :=
    match documents.find? fun document => document.text = text with
    | some document => .ok document.value
    | none => .error (.standard "[json.exception.parse_error.101]")
  dump value := .ok value.compact

theorem JsonText.parse_knowing
    {documents : List Document} {text : String} {value : Json}
    (distinct : (documents.map Document.text).Nodup)
    (known : (text, value) ∈ documents.map fun document =>
      (document.text, document.value)) :
    (JsonText.knowing documents).parse text = .ok value := by
  obtain ⟨document, member, same⟩ := List.mem_map.mp known
  cases same
  have found : documents.find? (fun other => other.text = document.text) =
      some document := by
    clear known
    induction documents with
    | nil => cases member
    | cons first documents induction =>
        obtain ⟨fresh, distinct⟩ := List.nodup_cons.mp distinct
        rcases List.mem_cons.mp member with rfl | member
        · simp
        · have other : first.text ≠ document.text := fun same =>
            fresh (same ▸ List.mem_map_of_mem member)
          rw [List.find?_cons_of_neg (by simpa using other)]
          exact induction distinct member
  simp only [JsonText.knowing, found]

/-- Whatever the library rejects, it throws one of its own exceptions. -/
theorem JsonText.parse_knowing_not_foreign
    {documents : List Document} (text : String) :
    (JsonText.knowing documents).parse text ≠ .error .foreign := by
  unfold JsonText.knowing
  dsimp only
  split <;> exact nofun

theorem JsonText.parse_unknown
    {documents : List Document} {text : String}
    (unknown : text ∉ documents.map Document.text) (value : Json) :
    (JsonText.knowing documents).parse text ≠ .ok value := by
  have missing : documents.find? (fun other => other.text = text) = none := by
    refine List.find?_eq_none.mpr fun document member same => unknown ?_
    rw [← of_decide_eq_true same]
    exact List.mem_map_of_mem member
  simp only [JsonText.knowing, missing]
  exact nofun

end ArnCore
