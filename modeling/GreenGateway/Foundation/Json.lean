import GreenGateway.Foundation.Text

/-! JSON values as a parser with arbitrary-precision numbers delivers them: a
number is its text, and an object's members are found by name. -/

namespace Foundation

open List

inductive Json where
  | null
  | bool (value : Bool)
  | number (text : String)
  | string (text : String)
  | array (items : List Json)
  | object (members : List (String × Json))
  deriving Repr, Inhabited

namespace Json

mutual

def same : Json → Json → Bool
  | .null, .null => true
  | .bool left, .bool right => left == right
  | .number left, .number right => left == right
  | .string left, .string right => left == right
  | .array left, .array right => sameItems left right
  | .object left, .object right => sameMembers left right
  | _, _ => false

def sameItems : List Json → List Json → Bool
  | [], [] => true
  | left :: lefts, right :: rights => same left right && sameItems lefts rights
  | _, _ => false

def sameMembers : List (String × Json) → List (String × Json) → Bool
  | [], [] => true
  | (name, left) :: lefts, (other, right) :: rights =>
    name == other && (same left right && sameMembers lefts rights)
  | _, _ => false

end

mutual

theorem same_iff : ∀ left right : Json, same left right = true ↔ left = right
  | .array left, .array right => by simp [same, sameItems_iff left right]
  | .object left, .object right => by simp [same, sameMembers_iff left right]
  | .null, right => by cases right <;> simp [same]
  | .bool _, right => by cases right <;> simp [same]
  | .number _, right => by cases right <;> simp [same]
  | .string _, right => by cases right <;> simp [same]
  | .array _, .null | .array _, .bool _ | .array _, .number _ | .array _, .string _
  | .array _, .object _ => by simp [same]
  | .object _, .null | .object _, .bool _ | .object _, .number _ | .object _, .string _
  | .object _, .array _ => by simp [same]

theorem sameItems_iff : ∀ left right : List Json, sameItems left right = true ↔ left = right
  | [], right => by cases right <;> simp [sameItems]
  | _ :: _, [] => by simp [sameItems]
  | left :: lefts, right :: rights => by
    simp [sameItems, same_iff left right, sameItems_iff lefts rights]

theorem sameMembers_iff :
    ∀ left right : List (String × Json), sameMembers left right = true ↔ left = right
  | [], right => by cases right <;> simp [sameMembers]
  | _ :: _, [] => by simp [sameMembers]
  | (name, left) :: lefts, (other, right) :: rights => by
    simp [sameMembers, same_iff left right, sameMembers_iff lefts rights, and_assoc]

end

instance : DecidableEq Json := fun left right => decidable_of_iff _ (same_iff left right)

/-- `Map::get`. -/
def lookup (name : String) : List (String × Json) → Option Json
  | [] => none
  | (other, value) :: rest => if other = name then some value else lookup name rest

/-- `Value::get` of a member name. -/
def get (value : Json) (name : String) : Option Json :=
  match value with
  | .object members => lookup name members
  | _ => none

def asStr : Json → Option String
  | .string text => some text
  | _ => none

def asArray : Json → Option (List Json)
  | .array items => some items
  | _ => none

def asObject : Json → Option (List (String × Json))
  | .object members => some members
  | _ => none

def isString (value : Json) : Bool := value.asStr.isSome

def isBoolean : Json → Bool
  | .bool _ => true
  | _ => false

def isNumber : Json → Bool
  | .number _ => true
  | _ => false

/-- The array index a pointer token spells, without sign or leading zero. -/
def parseIndex (token : String) : Option Nat :=
  let digits := token.toList
  if digits.isEmpty || !digits.all Char.isDigit || (digits.head? == some '0' && digits.length != 1)
  then none
  else some (Nat.ofDigitChars 10 digits 0)

/-- The reference tokens of a pointer, unescaped. -/
def pointerTokens (pointer : String) : List String :=
  (Text.split '/' pointer).tail.map fun token =>
    String.ofList (Text.replacePair '~' '0' '~' (Text.replacePair '~' '1' '/' token.toList))

/-- One step of a pointer walk. -/
def child (value : Json) (token : String) : Option Json :=
  match value with
  | .object members => lookup token members
  | .array items => (parseIndex token).bind fun index => items[index]?
  | _ => none

/-- `Value::pointer`. -/
def pointer (value : Json) (path : String) : Option Json :=
  if path.isEmpty then some value
  else if !Text.startsWith path "/" then none
  else (pointerTokens path).foldlM child value

/-- Inserts or replaces one member, keeping the names in order. -/
def insertMember (name : String) (value : Json) : List (String × Json) → List (String × Json)
  | [] => [(name, value)]
  | (other, held) :: rest =>
    if name = other then (name, value) :: rest
    else if name < other then (name, value) :: (other, held) :: rest
    else (other, held) :: insertMember name value rest

/-- An object from its members in any order; a later one replaces an earlier. -/
def ofMembers (members : List (String × Json)) : Json :=
  .object (members.foldl (fun held member => insertMember member.1 member.2 held) [])

section Names

variable {members : List (String × Json)}

/-- Where names are distinct, a member is found under its name. -/
theorem lookup_eq_some (distinct : (members.map Prod.fst).Nodup) {name : String} {value : Json} :
    lookup name members = some value ↔ (name, value) ∈ members := by
  induction members with
  | nil => simp [lookup]
  | cons member rest ih =>
    obtain ⟨other, held⟩ := member
    rw [map_cons, nodup_cons] at distinct
    by_cases hit : other = name
    · subst hit
      have absent : (other, value) ∉ rest := fun member =>
        distinct.1 (List.mem_map.mpr ⟨_, member, rfl⟩)
      simp [lookup, absent, eq_comm]
    · simp [lookup, hit, Ne.symm hit, ih distinct.2]

theorem insertMember_perm {name : String} (value : Json) (absent : name ∉ members.map Prod.fst) :
    (insertMember name value members).Perm ((name, value) :: members) := by
  induction members with
  | nil => exact .refl _
  | cons member rest ih =>
    obtain ⟨other, held⟩ := member
    rw [map_cons, mem_cons, not_or] at absent
    rw [insertMember, if_neg absent.1]
    split
    · exact .refl _
    · exact ((ih absent.2).cons _).trans (.swap ..)

theorem foldl_insertMember_perm (distinct : (members.map Prod.fst).Nodup)
    (held : List (String × Json))
    (apart : ∀ name ∈ members.map Prod.fst, name ∉ held.map Prod.fst) :
    (members.foldl (fun held member => insertMember member.1 member.2 held) held).Perm
      (members ++ held) := by
  induction members generalizing held with
  | nil => exact .refl _
  | cons member rest ih =>
    rw [map_cons, nodup_cons] at distinct
    have absent := apart member.1 (mem_cons_self ..)
    have inserted := insertMember_perm member.2 absent
    refine (ih distinct.2 _ fun name listed => ?_).trans
      (((inserted.append_left rest).trans perm_middle))
    rw [(inserted.map Prod.fst).mem_iff, map_cons, mem_cons, not_or]
    refine ⟨?_, apart name (mem_cons_of_mem _ listed)⟩
    rintro rfl
    exact distinct.1 listed

end Names

end Json

end Foundation
