import PushReceiver.Cpp

set_option autoImplicit false

namespace PushReceiver

-- nlohmann::json. A number is kept as its text, which no one reads; the members of an object
-- are those of a std::map, sorted by key.
inductive Json where
  | null
  | boolean (value : Bool)
  | number (text : Bytes)
  | string (text : Bytes)
  | array (elements : List Json)
  | object (members : List (Bytes × Json))
deriving Repr

-- std::map::emplace: a key that is there keeps its value.
def emplace (key : Bytes) (value : Json) : List (Bytes × Json) → List (Bytes × Json)
  | [] => [(key, value)]
  | (first, held) :: rest =>
      if key = first then (first, held) :: rest
      else if key < first then (key, value) :: (first, held) :: rest
      else (first, held) :: emplace key value rest

-- std::map::find.
def findMember (key : Bytes) : List (Bytes × Json) → Option Json
  | [] => none
  | (first, held) :: rest => if key = first then some held else findMember key rest

-- An array with two elements whose first element is a string.
def Json.asMember : Json → Option (Bytes × Json)
  | .array [.string key, value] => some (key, value)
  | _ => none

-- basic_json(initializer_list_t): an object if every element is a member, else an array.
def Json.initializerList (init : List Json) : Json :=
  match init.mapM Json.asMember with
  | some members => .object (members.foldl (fun object member => emplace member.1 member.2 object) [])
  | none => .array init

def Json.contains (json : Json) (key : Bytes) : Bool :=
  match json with
  | .object members => (findMember key members).isSome
  | _ => false

-- operator[] with a string. The const overload, which asserts that the key is there and takes
-- no null, is only called where contains has found the key.
def Json.index (json : Json) (key : Bytes) : Except Exception Json :=
  match json with
  | .object members => .ok ((findMember key members).getD .null)
  | .null => .ok .null
  | _ => .error (.typeError 305)

-- The implicit conversion to std::string.
def Json.toStdString : Json → Except Exception Bytes
  | .string text => .ok text
  | _ => .error (.typeError 302)

end PushReceiver
