import AutoDiff.Json.Parser

/-!
Records and variants in JSON. A record is an object, or an array of its fields in order. A variant is
an object with the variant's name as its one key, or only the name where nothing else belongs to it.
-/

namespace AutoDiff.Json

def hasRepeated (names : List String) (keys : List String) : Bool :=
  names.any fun name => 1 < keys.count name

/-- The fields of a record, by name. Members with other names are ignored; an array has all fields. -/
def fields? (names : List String) : Json → Option (List (Option Json))
  | array items => if items.length = names.length then some (items.map some) else none
  | object members => do
    let members ← members.mapM fun (key, item) => key.map (·, item)
    guard !(hasRepeated names (members.map (·.1)))
    return names.map (members.lookup ·)
  | _ => none

def array? : Json → Option (List Json)
  | array items => some items
  | _ => none

/-- The name of a variant, and what belongs to it if the variant is not only a name. -/
def variant? : Json → Option (String × Option Json)
  | string (some name) => some (name, none)
  | object [(some name, content)] => some (name, some content)
  | _ => none

/-- A variant to which nothing belongs. -/
def constructor? (j : Json) : Option String :=
  match j.variant? with
  | some (name, none) | some (name, some null) => some name
  | _ => none

/-- A value that may be missing or `null`. -/
def optional? {β : Type} (decode : Json → Option β) : Option Json → Option (Option β)
  | none | some null => some none
  | some j => some <$> decode j

end AutoDiff.Json
