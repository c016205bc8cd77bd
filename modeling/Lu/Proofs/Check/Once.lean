import Lu.Check.Filling
import Lu.Proofs.Except
import Mathlib.Order.BooleanAlgebra.Set

namespace Lu

/-!
A step that comes to every slot once does not notice its record of filled slots: it does what the
same walk does without the record. The judgement says so for a visit, together with the slots that
the visit may fill; visits one after the other share them out.
-/

/-- A slot below a node: the way down to its own node, and its name. -/
abbrev SlotKey := List Nat × String

namespace Filled

/-- What is filled from a node further down on. -/
def descend : Filled → List Nat → Filled
  | filled, [] => filled
  | filled, index :: way => (filled.part index).descend way

/-- The slot is filled. -/
def Has (filled : Filled) (key : SlotKey) : Prop := key.2 ∈ (filled.descend key.1).slots

/-- None of the slots is filled. -/
def Lacks (filled : Filled) (keys : Set SlotKey) : Prop := ∀ key ∈ keys, ¬ filled.Has key

theorem nothing_descend (way : List Nat) : nothing.descend way = nothing := by
  induction way with
  | nil => rfl
  | cons index way ih => exact ih

theorem nothing_lacks (keys : Set SlotKey) : nothing.Lacks keys := by
  rintro ⟨way, slot⟩ - has
  simp [Has, nothing_descend, slots] at has

theorem Lacks.mono {filled : Filled} {keys more : Set SlotKey} (lacks : filled.Lacks more)
    (within : keys ⊆ more) : filled.Lacks keys := fun key member => lacks key (within member)

@[simp] theorem has_mark {filled : Filled} {slot : String} {key : SlotKey} :
    (filled.mark slot).Has key ↔ key = ([], slot) ∨ filled.Has key := by
  obtain ⟨_ | ⟨index, way⟩, other⟩ := key
  · simp [Has, descend, mark, slots]
  · simp [Has, descend, mark, part]

@[simp] theorem has_setPart_self {filled inner : Filled} {index : Nat} {slot : String} :
    (filled.setPart index inner).Has ([], slot) ↔ filled.Has ([], slot) := by
  simp [Has, descend, setPart, slots]

theorem has_setPart {filled inner : Filled} {index other : Nat} {way : List Nat} {slot : String} :
    (filled.setPart index inner).Has (other :: way, slot) ↔
      if other = index then inner.Has (way, slot) else filled.Has (other :: way, slot) := by
  by_cases same : other = index <;> simp [Has, descend, setPart, part, same]

end Filled

/-- The slots in a part of a node, among those that are given there. -/
def inPart (index : Nat) (keys : Set SlotKey) : Set SlotKey :=
  {key | ∃ way, key.1 = index :: way ∧ (way, key.2) ∈ keys}

/-- The slots of a node itself and those in its parts from an index on. -/
def ahead (index : Nat) : Set SlotKey := {key | ∀ first ∈ key.1.head?, index ≤ first}

section Keys

variable {index other : Nat} {way : List Nat} {slot : String} {keys : Set SlotKey}

@[simp] theorem not_mem_inPart_self : ([], slot) ∉ inPart index keys := by simp [inPart]

@[simp] theorem mem_inPart :
    (other :: way, slot) ∈ inPart index keys ↔ other = index ∧ (way, slot) ∈ keys := by
  simp [inPart]

/-- Different parts have no slot in common. -/
theorem inPart_apart {more : Set SlotKey} (different : index ≠ other) :
    inPart index keys ⊆ (inPart other more)ᶜ := by
  rintro ⟨_ | ⟨first, way⟩, slot⟩ here there
  · exact not_mem_inPart_self here
  · exact different ((mem_inPart.mp here).1.symm.trans (mem_inPart.mp there).1)

theorem inPart_compl {more : Set SlotKey} (apart : keys ⊆ moreᶜ) :
    inPart index keys ⊆ (inPart index more)ᶜ := by
  rintro ⟨_ | ⟨first, way⟩, slot⟩ here there
  · exact not_mem_inPart_self here
  · exact apart (mem_inPart.mp here).2 (mem_inPart.mp there).2

@[simp] theorem mem_ahead_self : ([], slot) ∈ ahead index := by simp [ahead]

@[simp] theorem mem_ahead : (other :: way, slot) ∈ ahead index ↔ index ≤ other := by simp [ahead]

@[simp] theorem ahead_zero : ahead 0 = Set.univ := by simp [ahead]

end Keys

namespace Filling

variable {α β : Type}

/-- The visit fills no other slots than these, and while they are empty it does what the same visit
does without a record. -/
structure Fills (keys : Set SlotKey) (visit : Filling α) (plain : Check α) : Prop where
  agrees : ∀ {filled}, filled.Lacks keys → Prod.fst <$> visit filled = plain
  frame : ∀ {filled result after}, filled.Lacks keys → visit filled = .ok (result, after) →
    ∀ key ∉ keys, after.Has key ↔ filled.Has key

namespace Fills

variable {keys more : Set SlotKey} {visit : Filling α} {plain : Check α}
  {next : α → Filling β} {plainNext : α → Check β}

theorem result (fills : Fills keys visit plain) {filled after : Filled} {a : α}
    (lacks : filled.Lacks keys) (run : visit filled = .ok (a, after)) : plain = .ok a := by
  rw [← fills.agrees lacks, run]
  rfl

theorem start (fills : Fills keys visit plain) : visit.start = plain :=
  fills.agrees (Filled.nothing_lacks keys)

theorem mono (fills : Fills keys visit plain) (within : keys ⊆ more) : Fills more visit plain where
  agrees lacks := fills.agrees (lacks.mono within)
  frame lacks run key other :=
    fills.frame (lacks.mono within) run key fun member => other (within member)

protected theorem pure (a : α) : Fills keys (pure a) (pure a) where
  agrees _ := rfl
  frame _ run _ _ := by
    cases run
    rfl

protected theorem lift (plain : Check α) : Fills keys (liftM plain) plain where
  agrees _ := by cases plain <;> rfl
  frame _ run _ _ := by
    cases plain with
    | ok a =>
      cases run
      rfl
    | error e => cases run

/-- The first visit takes its slots away from those behind it. -/
protected theorem bind (first : Fills keys visit plain) (within : keys ⊆ more)
    (rest : ∀ a, plain = .ok a → Fills (more \ keys) (next a) (plainNext a)) :
    Fills more (visit >>= next) (plain >>= plainNext) := by
  have between {filled after : Filled} {a : α} (lacks : filled.Lacks more)
      (run : visit filled = .ok (a, after)) : after.Lacks (more \ keys) := fun key member has =>
    lacks key member.1 ((first.frame (lacks.mono within) run key member.2).mp has)
  constructor
  · intro filled lacks
    cases run : visit filled with
    | error e =>
      have same := first.agrees (lacks.mono within)
      rw [run] at same
      rw [← same]
      exact congrArg (fun r => Prod.fst <$> (r >>= fun p => next p.1 p.2)) run
    | ok found =>
      obtain ⟨a, after⟩ := found
      have atFirst := first.result (lacks.mono within) run
      have atRest := (rest a atFirst).agrees (between lacks run)
      rw [atFirst]
      refine Eq.trans ?_ atRest
      exact congrArg (fun r => Prod.fst <$> (r >>= fun p => next p.1 p.2)) run
  · intro filled b after lacks run key other
    obtain ⟨⟨a, middle⟩, atFirst, atRest⟩ := bind_eq_ok.mp run
    have behind := rest a (first.result (lacks.mono within) atFirst)
    rw [behind.frame (between lacks atFirst) atRest key fun member => other member.1,
      first.frame (lacks.mono within) atFirst key fun member => other (within member)]

/-- What a visit fills in a part is apart from what is filled elsewhere. -/
protected theorem inside (fills : Fills keys visit plain) (index : Nat) :
    Fills (inPart index keys) (inside index visit) plain := by
  have within {filled : Filled} (lacks : filled.Lacks (inPart index keys)) :
      (filled.part index).Lacks keys :=
    fun key member => lacks (index :: key.1, key.2) (mem_inPart.mpr ⟨rfl, member⟩)
  constructor
  · intro filled lacks
    rw [← fills.agrees (within lacks)]
    cases run : visit (filled.part index) with
    | ok found => simp [inside, run, Functor.map, Except.map, bind, Except.bind, pure, Except.pure]
    | error e => simp [inside, run, Functor.map, Except.map, bind, Except.bind]
  · rintro filled a after lacks run ⟨_ | ⟨other, way⟩, slot⟩ outside
    · obtain ⟨⟨_, inner⟩, -, run⟩ := bind_eq_ok.mp run
      cases run
      exact Filled.has_setPart_self
    · obtain ⟨⟨_, inner⟩, atPart, run⟩ := bind_eq_ok.mp run
      cases run
      rw [Filled.has_setPart]
      split
      case isTrue same =>
        subst same
        exact fills.frame (within lacks) atPart (way, slot)
          fun member => outside (mem_inPart.mpr ⟨rfl, member⟩)
      case isFalse => rfl

/-- An empty slot is filled as if there were no record. -/
protected theorem fill {name : String} {slot : Attribute name α} {value : α}
    (own : ([], name) ∈ keys) : Fills keys (fill slot value) (Check.lift (slot.set value)) := by
  have empty {filled : Filled} (lacks : filled.Lacks keys) : name ∉ filled.slots :=
    lacks ([], name) own
  constructor
  · intro filled lacks
    rw [fill, if_neg (empty lacks)]
    cases slot.set value <;> rfl
  · intro filled a after lacks run key outside
    rw [fill, if_neg (empty lacks)] at run
    obtain ⟨_, -, run⟩ := bind_eq_ok.mp run
    cases run
    rw [Filled.has_mark, or_iff_right]
    rintro rfl
    exact outside own

theorem lift_bind (rest : ∀ a, plain = .ok a → Fills keys (next a) (plainNext a)) :
    Fills keys (liftM plain >>= next) (plain >>= plainNext) := by
  refine (Fills.lift plain).bind (Set.empty_subset keys) fun a run => ?_
  rw [Set.sdiff_empty]
  exact rest a run

theorem then_pure (fills : Fills keys visit plain) (f : α → β) :
    Fills keys (visit >>= fun a => pure (f a)) (plain >>= fun a => pure (f a)) :=
  fills.bind (Set.Subset.refl keys) fun a _ => .pure (f a)

/-- The visit of a part, where the parts are visited in order. -/
theorem part {index : Nat} (first : Fills (ahead 0) visit plain)
    (rest : ∀ a, plain = .ok a → Fills (ahead (index + 1)) (next a) (plainNext a)) :
    Fills (ahead index) (inside index visit >>= next) (plain >>= plainNext) := by
  refine (first.inside index).bind ?_ fun a run => (rest a run).mono ?_
  · rintro ⟨_ | ⟨other, way⟩, slot⟩ member
    · exact mem_ahead_self
    · exact mem_ahead.mpr (mem_inPart.mp member).1.ge
  · rintro ⟨_ | ⟨other, way⟩, slot⟩ member
    · exact ⟨mem_ahead_self, not_mem_inPart_self⟩
    · have later := mem_ahead.mp member
      refine ⟨mem_ahead.mpr (Nat.le_of_succ_le later), fun inside => ?_⟩
      have here := (mem_inPart.mp inside).1
      omega

end Fills

/-- What is filled at the node itself stays filled. -/
structure Retains (visit : Filling α) : Prop where
  kept : ∀ {filled a after}, visit filled = .ok (a, after) → filled.slots ⊆ after.slots

/-- The visit fills a slot of the node itself, which must have been empty. -/
structure Stores (slot : String) (visit : Filling α) : Prop where
  stored : ∀ {filled a after}, visit filled = .ok (a, after) →
    slot ∉ filled.slots ∧ slot ∈ after.slots

section Stores

variable {slot : String} {visit : Filling α} {next : α → Filling β}

theorem Retains.pure (a : α) : Retains (pure a) where
  kept run := by
    cases run
    exact List.Subset.refl _

theorem Retains.lift (plain : Check α) : Retains (liftM plain) where
  kept run := by
    cases plain with
    | ok a =>
      cases run
      exact List.Subset.refl _
    | error e => cases run

theorem Retains.inside (index : Nat) (visit : Filling α) : Retains (inside index visit) where
  kept run := by
    obtain ⟨_, -, run⟩ := bind_eq_ok.mp run
    cases run
    exact List.Subset.refl _

theorem Retains.then_pure (first : Retains visit) (f : α → β) :
    Retains (visit >>= fun a => Pure.pure (f a)) where
  kept run := by
    obtain ⟨⟨a, middle⟩, atFirst, atRest⟩ := bind_eq_ok.mp run
    cases atRest
    exact first.kept atFirst

theorem Stores.fill {name : String} (slot : Attribute name α) (value : α) :
    Stores name (fill slot value) where
  stored run := by
    unfold Filling.fill at run
    split at run
    case isTrue => cases run
    case isFalse empty =>
      obtain ⟨_, -, run⟩ := bind_eq_ok.mp run
      cases run
      exact ⟨empty, List.mem_cons_self ..⟩

theorem Stores.fail (failure : CheckFailure) :
    Stores slot (liftM (.error failure : Check α) : Filling α) where
  stored run := nomatch run

theorem Stores.behind (first : Retains visit) (rest : ∀ a, Stores slot (next a)) :
    Stores slot (visit >>= next) where
  stored run := by
    obtain ⟨⟨a, middle⟩, atFirst, atRest⟩ := bind_eq_ok.mp run
    obtain ⟨empty, stored⟩ := (rest a).stored atRest
    exact ⟨fun member => empty (first.kept atFirst member), stored⟩

theorem Stores.before (first : Stores slot visit) (rest : ∀ a, Retains (next a)) :
    Stores slot (visit >>= next) where
  stored run := by
    obtain ⟨⟨a, middle⟩, atFirst, atRest⟩ := bind_eq_ok.mp run
    obtain ⟨empty, stored⟩ := first.stored atFirst
    exact ⟨empty, (rest a).kept atRest stored⟩

/-- Of two visits that fill the same slot the second does not succeed. -/
theorem Stores.not_twice {second : Filling β} (first : Stores slot visit)
    (again : Stores slot second) {filled after last : Filled} {a : α} {b : β}
    (run : visit filled = .ok (a, after)) : second after ≠ .ok (b, last) :=
  fun other => (again.stored other).1 (first.stored run).2

end Stores

end Filling

end Lu
