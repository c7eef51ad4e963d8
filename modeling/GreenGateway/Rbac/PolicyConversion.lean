import GreenGateway.Foundation.Ascii
import GreenGateway.Foundation.FreshName
import GreenGateway.Rbac.Validation

/-! The ids a 0.x policy gets when it is converted to policy v1. -/

namespace GreenGateway.Rbac

open Foundation List

section Model

inductive ChangeCode where
  | ruleIdWritten
  | ruleIdReplaced
  | elementIdAssigned
  deriving DecidableEq, Repr

def ChangeCode.message : ChangeCode → String
  | .ruleIdWritten =>
    "the rule had no id; the id the gateway already reports for it, its index, is written, so " ++
      "its audit attribution is unchanged"
  | .ruleIdReplaced =>
    "the rule's id is not a valid v1 id or an earlier rule already uses it; it gets a generated " ++
      "id, and its audit attribution changes to that id"
  | .elementIdAssigned => "the element had no id; it gets a generated one"

structure ConversionChange where
  code : ChangeCode
  pointer : String
  elementId : Option String
  previousId : Option String
  message : String
  deriving DecidableEq, Repr

def ConversionChange.new (code : ChangeCode) (pointer : String) : ConversionChange :=
  { code, pointer, elementId := none, previousId := none, message := code.message }

def ConversionChange.withId (code : ChangeCode) (pointer elementId : String) : ConversionChange :=
  { ConversionChange.new code pointer with elementId := some elementId }

def isValidElementId (id : String) : Bool := isValidStableRouteId id

/-- An element that carries an id, by its section and index. -/
inductive Slot where
  | rule (index : Nat)
  | route (index : Nat)
  | rateLimit (index : Nat)
  deriving DecidableEq, Repr

def Slot.pointer : Slot → String
  | .rule index => "/rules/" ++ toString index ++ "/id"
  | .route index => "/routes/" ++ toString index ++ "/id"
  | .rateLimit index => "/rate_limits/" ++ toString index ++ "/id"

/-- The plain form of a generated id. -/
def Slot.base : Slot → String
  | .rule index => "rule-" ++ toString index
  | .route index => "route-" ++ toString index
  | .rateLimit index => "rate-limit-" ++ toString index

def Rule.withId (id : Option String) (rule : Rule) : Rule := { rule with id }

def RouteRule.withId (id : Option String) (route : RouteRule) : RouteRule := { route with id }

def RateLimitRule.withId (id : Option String) (limit : RateLimitRule) : RateLimitRule :=
  { limit with id }

/-- Writes the id of an element. -/
def Policy.setId (policy : Policy) (id : String) : Slot → Policy
  | .rule index => { policy with rules := policy.rules.modify index (Rule.withId (some id)) }
  | .route index =>
    { policy with routes := policy.routes.modify index (RouteRule.withId (some id)) }
  | .rateLimit index =>
    { policy with rateLimits := policy.rateLimits.modify index (RateLimitRule.withId (some id)) }

/-- The candidates for an id: the plain form, then with the suffixes from 2. -/
def idCandidate (base : String) : Nat → String
  | 0 => base
  | attempt + 1 => base ++ ("-" ++ toString (attempt + 2))

/-- `base`, or `base` with the smallest suffix that is not taken, within so many tries. -/
def uniqueId (tries : Nat) (base : String) (taken : List String) : Option String :=
  FreshName.search (idCandidate base) taken tries 0

/-- The policy as far as it is converted, the ids claimed so far and the changes listed. -/
structure Conversion where
  policy : Policy
  taken : List String
  changes : List ConversionChange

/-- The id that a rule's decisions are already attributed to. -/
def effectiveId (index : Nat) (rule : Rule) : String := rule.id.getD (toString index)

/-- Claims the effective id of one rule, or leaves the rule for later. -/
def claimRule (state : Conversion × List (Nat × String)) (index : Nat) :
    Conversion × List (Nat × String) :=
  match state.1.policy.rules[index]? with
  | none => state
  | some rule =>
    let effective := effectiveId index rule
    if isValidElementId effective ∧ effective ∉ state.1.taken then
      let taken := state.1.taken ++ [effective]
      if rule.id.isNone then
        ({ policy := state.1.policy.setId effective (.rule index), taken,
           changes := state.1.changes ++
            [.withId .ruleIdWritten (Slot.rule index).pointer effective] }, state.2)
      else ({ state.1 with taken }, state.2)
    else (state.1, state.2 ++ [(index, effective)])

/-- Gives an element a generated id and lists it. -/
def Conversion.generate (tries : Nat) (code : ChangeCode) (previous : Option String)
    (state : Conversion) (slot : Slot) : Option Conversion := do
  let id ← uniqueId tries slot.base state.taken
  some
    { policy := state.policy.setId id slot
      taken := state.taken ++ [id]
      changes := state.changes ++
        [{ ConversionChange.withId code slot.pointer id with previousId := previous }] }

def assignRoute (tries : Nat) (state : Conversion) (index : Nat) : Option Conversion :=
  state.generate tries .elementIdAssigned none (.route index)

def replaceRule (tries : Nat) (state : Conversion) (entry : Nat × String) : Option Conversion :=
  if entry.1 < state.policy.rules.length then
    state.generate tries .ruleIdReplaced (some entry.2) (.rule entry.1)
  else some state

def assignRateLimit (tries : Nat) (state : Conversion) (index : Nat) : Option Conversion :=
  state.generate tries .elementIdAssigned none (.rateLimit index)

/-- Gives every rule, route and rate override its id: kept ids first, then generated ones in
section order. Each search for a generated id may take so many tries. -/
def assignIds (tries : Nat) (policy : Policy) (changes : List ConversionChange) :
    Option (Policy × List ConversionChange) := do
  let (state, replaced) :=
    (List.range policy.rules.length).foldl claimRule ({ policy, taken := [], changes }, [])
  let state ← (List.range policy.routes.length).foldlM (assignRoute tries) state
  let state ← replaced.foldlM (replaceRule tries) state
  let state ← (List.range policy.rateLimits.length).foldlM (assignRateLimit tries) state
  some (state.policy, state.changes)

/-- The policy with the version and rule ids of its source and no other ids. -/
def withoutConversionIds (converted source : Policy) : Policy :=
  let restore (rule : Rule) (index : Nat) : Rule :=
    match source.rules[index]? with
    | none => rule
    | some original => rule.withId original.id
  { converted with
    schemaVersion := source.schemaVersion
    rules := converted.rules.mapIdx fun index rule => restore rule index
    routes := converted.routes.map (RouteRule.withId none)
    rateLimits := converted.rateLimits.map (RateLimitRule.withId none) }

end Model

section Slots

namespace Policy

def idAt (policy : Policy) : Slot → Option String
  | .rule index => policy.rules[index]?.bind Rule.id
  | .route index => policy.routes[index]?.bind RouteRule.id
  | .rateLimit index => policy.rateLimits[index]?.bind RateLimitRule.id

/-- Every element of the three sections. -/
def slots (policy : Policy) : List Slot :=
  (List.range policy.rules.length).map .rule ++ (List.range policy.routes.length).map .route ++
    (List.range policy.rateLimits.length).map .rateLimit

/-- Everything but the ids. -/
def eraseIds (policy : Policy) : Policy :=
  { policy with
    rules := policy.rules.map (Rule.withId none)
    routes := policy.routes.map (RouteRule.withId none)
    rateLimits := policy.rateLimits.map (RateLimitRule.withId none) }

variable {policy other : Policy} {slot : Slot} {id : String}

theorem mem_slots_rule
    {index : Nat} : .rule index ∈ policy.slots ↔ index < policy.rules.length := by
  simp [slots]

theorem mem_slots_route {index : Nat} :
    .route index ∈ policy.slots ↔ index < policy.routes.length := by
  simp [slots]

theorem mem_slots_rateLimit {index : Nat} :
    .rateLimit index ∈ policy.slots ↔ index < policy.rateLimits.length := by
  simp [slots]

theorem slots_nodup (policy : Policy) : policy.slots.Nodup := by
  have rules : ((List.range policy.rules.length).map Slot.rule).Nodup :=
    List.nodup_range.map fun _ _ same => Slot.rule.inj same
  have routes : ((List.range policy.routes.length).map Slot.route).Nodup :=
    List.nodup_range.map fun _ _ same => Slot.route.inj same
  have limits : ((List.range policy.rateLimits.length).map Slot.rateLimit).Nodup :=
    List.nodup_range.map fun _ _ same => Slot.rateLimit.inj same
  rw [slots, nodup_append, nodup_append]
  refine ⟨⟨rules, routes, ?_⟩, limits, ?_⟩
  · simp
  · simp only [mem_append, mem_map]
    rintro _ (⟨_, -, rfl⟩ | ⟨_, -, rfl⟩) _ ⟨_, -, rfl⟩ <;> simp

theorem slots_congr (same : policy.eraseIds = other.eraseIds) : policy.slots = other.slots := by
  have rules := congrArg (fun policy => (Policy.rules policy).length) same
  have routes := congrArg (fun policy => (Policy.routes policy).length) same
  have limits := congrArg (fun policy => (Policy.rateLimits policy).length) same
  simp only [eraseIds, length_map] at rules routes limits
  rw [slots, slots, rules, routes, limits]

theorem map_modify_of_absorbs {α β : Type*} (items : List α) (index : Nat) (change : α → α)
    (reads : α → β) (absorbs : ∀ item, reads (change item) = reads item) :
    (items.modify index change).map reads = items.map reads := by
  apply ext_getElem?
  intro place
  rw [List.getElem?_map, List.getElem?_map, List.getElem?_modify]
  split
  · cases items[place]? with
    | none => rfl
    | some item => simp [absorbs]
  · simp

theorem eraseIds_setId (policy : Policy) (id : String) (slot : Slot) :
    (policy.setId id slot).eraseIds = policy.eraseIds := by
  cases slot with
  | rule index =>
    simp only [setId, eraseIds,
      map_modify_of_absorbs _ _ (Rule.withId (some id)) (Rule.withId none) fun _ => rfl]
  | route index =>
    simp only [setId, eraseIds,
      map_modify_of_absorbs _ _ (RouteRule.withId (some id)) (RouteRule.withId none) fun _ => rfl]
  | rateLimit index =>
    simp only [setId, eraseIds, map_modify_of_absorbs _ _ (RateLimitRule.withId (some id))
      (RateLimitRule.withId none) fun _ => rfl]

theorem idAt_setId_self (held : slot ∈ policy.slots) :
    (policy.setId id slot).idAt slot = some id := by
  cases slot with
  | rule index =>
    have inside := mem_slots_rule.mp held
    simp [idAt, setId, List.getElem?_eq_getElem inside, Rule.withId]
  | route index =>
    have inside := mem_slots_route.mp held
    simp [idAt, setId, List.getElem?_eq_getElem inside, RouteRule.withId]
  | rateLimit index =>
    have inside := mem_slots_rateLimit.mp held
    simp [idAt, setId, List.getElem?_eq_getElem inside, RateLimitRule.withId]

theorem idAt_setId_other {target : Slot} (differs : target ≠ slot) :
    (policy.setId id slot).idAt target = policy.idAt target := by
  cases slot <;> cases target <;> try rfl
  all_goals
    case _ index place =>
    have apart : index ≠ place := by
      rintro rfl
      exact differs rfl
    simp [idAt, setId, apart]

end Policy

end Slots

section Claims

/-- The change that the id of an element calls for, if it is not what the source says. -/
def writtenChange (source policy : Policy) (slot : Slot) : Option ConversionChange :=
  if policy.idAt slot = source.idAt slot then none
  else (policy.idAt slot).map fun id =>
    match slot with
    | .rule index =>
      if source.idAt slot = none ∧ id = toString index then
        .withId .ruleIdWritten slot.pointer id
      else
        { ConversionChange.withId .ruleIdReplaced slot.pointer id with
          previousId := some ((source.idAt slot).getD (toString index)) }
    | _ => .withId .elementIdAssigned slot.pointer id

variable {source : Policy} {initial : List ConversionChange} {state next : Conversion}
  {done : List Slot} {slot : Slot} {id : String}

/-- The elements of the list have their ids, valid and distinct, the rest is as the source has
it, and the changes listed are those of the elements done. -/
structure Claimed (source : Policy) (initial : List ConversionChange) (state : Conversion)
    (done : List Slot) : Prop where
  same : state.policy.eraseIds = source.eraseIds
  once : done.Nodup
  within : ∀ slot ∈ done, slot ∈ source.slots
  taken : state.taken.map some = done.map state.policy.idAt
  distinct : state.taken.Nodup
  valid : ∀ id ∈ state.taken, isValidElementId id = true
  untouched : ∀ slot ∉ done, state.policy.idAt slot = source.idAt slot
  changes : state.changes = initial ++ done.filterMap (writtenChange source state.policy)

theorem claimed_start (source : Policy) (initial : List ConversionChange) :
    Claimed source initial { policy := source, taken := [], changes := initial } [] where
  same := rfl
  once := nodup_nil
  within := nofun
  taken := rfl
  distinct := nodup_nil
  valid := nofun
  untouched _ _ := rfl
  changes := (append_nil initial).symm

/-- One more element claims an id. -/
theorem Claimed.claim (claimed : Claimed source initial state done) (policy : Policy)
    (held : slot ∈ source.slots) (new : slot ∉ done) (free : id ∉ state.taken)
    (valid : isValidElementId id = true) (own : policy.idAt slot = some id)
    (others : ∀ target ≠ slot, policy.idAt target = state.policy.idAt target)
    (same : policy.eraseIds = state.policy.eraseIds) :
    Claimed source initial
      { policy, taken := state.taken ++ [id],
        changes := state.changes ++ (writtenChange source policy slot).toList }
      (done ++ [slot]) where
  same := same.trans claimed.same
  once := by
    rw [nodup_append]
    refine ⟨claimed.once, nodup_singleton slot, ?_⟩
    rintro target listed _ (_ | _) rfl
    · exact new listed
    · contradiction
  within target listed := by
    rcases List.mem_append.mp listed with earlier | here
    · exact claimed.within target earlier
    · rwa [List.mem_singleton.mp here]
  taken := by
    have earlier : done.map policy.idAt = done.map state.policy.idAt := by
      apply map_congr_left
      intro target listed
      exact others target (ne_of_mem_of_not_mem listed new)
    rw [map_append, map_append, claimed.taken, earlier]
    simp [own]
  distinct := by
    rw [nodup_append]
    refine ⟨claimed.distinct, nodup_singleton id, ?_⟩
    rintro other listed _ (_ | _) rfl
    · exact free listed
    · contradiction
  valid other listed := by
    rcases List.mem_append.mp listed with earlier | here
    · exact claimed.valid other earlier
    · rwa [List.mem_singleton.mp here]
  untouched target outside := by
    rw [mem_append, mem_singleton, not_or] at outside
    rw [others target outside.2, claimed.untouched target outside.1]
  changes := by
    have earlier : done.filterMap (writtenChange source policy) =
        done.filterMap (writtenChange source state.policy) := by
      apply filterMap_congr
      intro target listed
      rw [writtenChange, writtenChange, others target (ne_of_mem_of_not_mem listed new)]
    have last : [slot].filterMap (writtenChange source policy) =
        (writtenChange source policy slot).toList := by
      cases written : writtenChange source policy slot with
      | none => simp [written]
      | some change => simp [written]
    rw [filterMap_append, earlier, last, claimed.changes, append_assoc]

/-- There are fewer ids taken than elements while one is left. -/
theorem Claimed.taken_length (claimed : Claimed source initial state done)
    (held : slot ∈ source.slots)
    (new : slot ∉ done) : state.taken.length < source.slots.length := by
  have count : state.taken.length = done.length := by
    rw [← length_map some, claimed.taken, length_map]
  have more : (slot :: done).Nodup := List.nodup_cons.mpr ⟨new, claimed.once⟩
  have inside : slot :: done ⊆ source.slots := by
    intro target listed
    rcases List.mem_cons.mp listed with rfl | listed
    · exact held
    · exact claimed.within target listed
  have bound := (subperm_of_subset more inside).length_le
  rw [length_cons] at bound
  omega

end Claims

end GreenGateway.Rbac
