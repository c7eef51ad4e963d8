import GreenGateway.Foundation.Guards
import GreenGateway.Rbac.Model

/-! Explicit, position-aware candidate edits over a base policy. The document is
held typed, so its sections are lists of elements rather than JSON arrays. -/

namespace GreenGateway.Simulation

open Foundation Rbac List

/-- An ordered policy section an edit addresses by position. -/
inductive EditSection where
  | rules
  | routes
  | rateLimits
  deriving DecidableEq, Repr

namespace EditSection

def Element : EditSection → Type
  | .rules => Rule
  | .routes => RouteRule
  | .rateLimits => RateLimitRule

def elementId : (section_ : EditSection) → section_.Element → Option String
  | .rules, rule => Rule.id rule
  | .routes, route => RouteRule.id route
  | .rateLimits, limit => RateLimitRule.id limit

def items : (section_ : EditSection) → Policy → List section_.Element
  | .rules, document => document.rules
  | .routes, document => document.routes
  | .rateLimits, document => document.rateLimits

def setItems : (section_ : EditSection) → Policy → List section_.Element → Policy
  | .rules, document, items => { document with rules := items }
  | .routes, document, items => { document with routes := items }
  | .rateLimits, document, items => { document with rateLimits := items }

end EditSection

/-- A top-level scalar an edit may set, with its value. -/
inductive ScalarEdit where
  | defaultAction (value : DefaultAction)
  | enforcementMode (value : EnforcementMode)
  deriving DecidableEq, Repr

/-- One accepted edit. -/
inductive PolicyEdit where
  | insert (section_ : EditSection) (position : Nat) (value : section_.Element)
  | replace (section_ : EditSection) (position : Nat) (expectId : Option String)
      (value : section_.Element)
  | move (section_ : EditSection) («from» «to» : Nat) (expectId : Option String)
  | delete (section_ : EditSection) (position : Nat) (expectId : Option String)
  | set (scalar : ScalarEdit)

/-- Why an edit cannot apply: the member at fault, a code and a message. -/
structure EditRefusal where
  member : String
  code : String
  message : String
  deriving DecidableEq, Repr

/-- The element at a position of the section as edited so far. -/
def existing {α : Type} (items : List α) (position : Nat) (member : String) :
    Except EditRefusal α :=
  match items[position]? with
  | some item => .ok item
  | none =>
    .error
      { member
        code := "position_out_of_range"
        message := "no element is at this position in the section as edited so far" }

def checkExpectedId (id expectId : Option String) : Except EditRefusal Unit :=
  checkSome expectId fun expected =>
    refuse (id != some expected)
      { member := "expect_id"
        code := "edit_target_mismatch"
        message := "the element at this position does not carry the expected id" }

def applyEdit (document : Policy) : PolicyEdit → Except EditRefusal Policy
  | .set (.defaultAction value) => .ok { document with defaultAction := value }
  | .set (.enforcementMode value) => .ok { document with enforcementMode := value }
  | .insert section_ position value => do
    let items := section_.items document
    refuse (decide (position > items.length))
      { member := "position"
        code := "position_out_of_range"
        message := "an insert position may be at most the section's length, which appends" }
    .ok (section_.setItems document (items.insertIdx position value))
  | .replace section_ position expectId value => do
    let items := section_.items document
    let slot ← existing items position "position"
    checkExpectedId (section_.elementId slot) expectId
    .ok (section_.setItems document (items.set position value))
  | .delete section_ position expectId => do
    let items := section_.items document
    let slot ← existing items position "position"
    checkExpectedId (section_.elementId slot) expectId
    .ok (section_.setItems document (items.eraseIdx position))
  | .move section_ «from» «to» expectId => do
    let items := section_.items document
    let element ← existing items «from» "from"
    checkExpectedId (section_.elementId element) expectId
    refuse (decide («to» ≥ items.length))
      { member := "to"
        code := "position_out_of_range"
        message := "a move destination must be an existing position in the section" }
    .ok (section_.setItems document ((items.eraseIdx «from»).insertIdx «to» element))

/-- The diagnostic of the edit that refused the candidate. -/
structure EditDiagnostic where
  code : String
  pointer : String
  message : String
  deriving DecidableEq, Repr

/-- Applies the edits in order, each to the result of the ones before it; the
first that cannot apply refuses the whole candidate. -/
def applyEditsFrom (pointer : String) (index : Nat) (document : Policy) :
    List PolicyEdit → Except EditDiagnostic Policy
  | [] => .ok document
  | edit :: rest =>
    match applyEdit document edit with
    | .error refusal =>
      .error
        { code := refusal.code
          pointer := s!"{pointer}/{index}/{refusal.member}"
          message := refusal.message }
    | .ok document => applyEditsFrom pointer (index + 1) document rest

def applyEdits (base : Policy) (edits : List PolicyEdit) (pointer : String) :
    Except EditDiagnostic Policy :=
  applyEditsFrom pointer 0 base edits

section Shapes

variable {α : Type} {items : List α}

/-- What a deletion leaves. -/
theorem eraseIdx_split {position : Nat} {item : α} (found : items[position]? = some item) :
    ∃ front back, items = front ++ item :: back ∧ front.length = position ∧
      items.eraseIdx position = front ++ back := by
  obtain ⟨bound, rfl⟩ := List.getElem?_eq_some_iff.mp found
  refine ⟨items.take position, items.drop (position + 1), ?_, ?_, ?_⟩
  · rw [getElem_cons_drop, take_append_drop]
  · simp only [length_take]
    omega
  · rw [eraseIdx_eq_take_drop_succ]

theorem insertIdx_append (front back : List α) (item : α) :
    (front ++ back).insertIdx front.length item = front ++ item :: back := by
  induction front with
  | nil => simp
  | cons head rest ih => simp [ih]

/-- What moving an element before an earlier one leaves. -/
theorem move_split {position earlierPosition : Nat} {item earlier : α}
    (found : items[position]? = some item) (foundEarlier : items[earlierPosition]? = some earlier)
    (before : earlierPosition < position) :
    ∃ front middle back, items = front ++ earlier :: (middle ++ item :: back) ∧
      front.length = earlierPosition ∧
      (items.eraseIdx position).insertIdx earlierPosition item =
        front ++ item :: earlier :: (middle ++ back) := by
  obtain ⟨front, rest, rfl, size, -⟩ := eraseIdx_split foundEarlier
  obtain ⟨offset, rfl⟩ : ∃ offset, position = front.length + 1 + offset :=
    ⟨position - (front.length + 1), by omega⟩
  have inRest : rest[offset]? = some item := by
    rw [List.getElem?_append_right (by omega)] at found
    simpa [Nat.add_assoc, Nat.add_comm 1 offset] using found
  obtain ⟨middle, back, rfl, placed, erased⟩ := eraseIdx_split inRest
  refine ⟨front, middle, back, rfl, size, ?_⟩
  subst size
  rw [eraseIdx_append_of_length_le (by omega)]
  have shift : front.length + 1 + offset - front.length = offset + 1 := by omega
  rw [shift, eraseIdx_cons_succ, erased, insertIdx_append]

end Shapes

section Single

variable {section_ : EditSection} {document : Policy} {position earlierPosition : Nat}
  {item earlier : section_.Element} {expectId : Option String}

theorem existing_of_found {α : Type} {items : List α} {slot : α}
    (found : items[position]? = some slot) (member : String) :
    existing items position member = .ok slot := by
  simp [existing, found]

theorem checkExpectedId_ok {id : Option String}
    (expected : ∀ own, expectId = some own → id = some own) :
    checkExpectedId id expectId = .ok () := by
  refine checkSome_eq_ok.mpr fun own named => ?_
  simp [refuse, expected own named]

theorem applyEdits_single {edit : PolicyEdit} {edited : Policy}
    (applied : applyEdit document edit = .ok edited) (pointer : String) :
    applyEdits document [edit] pointer = .ok edited := by
  simp [applyEdits, applyEditsFrom, applied]

theorem applyEdits_delete (found : (section_.items document)[position]? = some item)
    (expected : ∀ own, expectId = some own → section_.elementId item = some own)
    (pointer : String) :
    ∃ front back, section_.items document = front ++ item :: back ∧ front.length = position ∧
      applyEdits document [.delete section_ position expectId] pointer =
        .ok (section_.setItems document (front ++ back)) := by
  obtain ⟨front, back, listed, size, erased⟩ := eraseIdx_split found
  refine ⟨front, back, listed, size, applyEdits_single ?_ pointer⟩
  simp only [applyEdit, bind_eq_ok, unit_exists_ok]
  exact ⟨item, existing_of_found found _, checkExpectedId_ok expected, by rw [erased]⟩

/-- Moving a listed element before an earlier one applies. -/
theorem applyEdits_move (found : (section_.items document)[position]? = some item)
    (foundEarlier : (section_.items document)[earlierPosition]? = some earlier)
    (before : earlierPosition < position)
    (expected : ∀ own, expectId = some own → section_.elementId item = some own)
    (pointer : String) :
    ∃ front middle back,
      section_.items document = front ++ earlier :: (middle ++ item :: back) ∧
      applyEdits document [.move section_ position earlierPosition expectId] pointer =
        .ok (section_.setItems document (front ++ item :: earlier :: (middle ++ back))) := by
  obtain ⟨front, middle, back, listed, size, moved⟩ := move_split found foundEarlier before
  refine ⟨front, middle, back, listed, applyEdits_single ?_ pointer⟩
  have inRange : decide (earlierPosition ≥ (section_.items document).length) = false := by
    obtain ⟨bound, -⟩ := List.getElem?_eq_some_iff.mp found
    simp only [decide_eq_false_iff_not]
    omega
  simp only [applyEdit, bind_eq_ok, unit_exists_ok, refuse_eq_ok]
  exact ⟨item, existing_of_found found _, checkExpectedId_ok expected, inRange, by rw [moved]⟩

end Single

end GreenGateway.Simulation
