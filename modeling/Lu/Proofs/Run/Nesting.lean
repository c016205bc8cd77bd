import Lu.Proofs.Run.Visible

namespace Lu

/-!
The frames of a running program lie one within another, and a scope never sees more than the scope
that sees it. What a piece of a run may change in a context is said by the scopes that it sees.
-/

namespace Context

/-- The scopes that are visible from a scope, itself the first: those of its frame down to the base,
then those around the declaration of the function. -/
def seen (frames : List Frame) (index : Nat) : List Nat := (frameAt index frames).visible (index + 1)

/-- Each frame begins above the one that it was called from. Its function was declared further out, in
a scope of the frame that it knows as its home. -/
inductive Nested : List Frame → Prop
  | nil : Nested []
  | cons {base staticLink : Nat} {outer : List Frame} (nested : Nested outer)
      (inside : (innermost outer).base < base) (linked : staticLink < base) :
      Nested (.call base staticLink (frameAt staticLink outer) :: outer)

/-- Well-formed frames: they are nested, and the innermost one has a scope at least. -/
structure Framed (context : Context) : Prop where
  nested : Nested context.calls
  base : (innermost context.calls).base < context.depth

theorem initial_framed : initial.Framed := ⟨.nil, Nat.one_pos⟩

theorem Nested.rooted {frames : List Frame} (nested : Nested frames) :
    ∀ frame ∈ frames, frame.Rooted := by
  induction nested with
  | nil => intro frame member; cases member
  | cons _ _ linked ih =>
    intro frame member
    rcases List.mem_cons.mp member with rfl | member
    · exact ⟨linked, frameAt_base .., frameAt_rooted ih _⟩
    · exact ih frame member

theorem seen_cons_of_lt {base staticLink index : Nat} {parent : Frame} {outer : List Frame}
    (below : index < base) : seen (.call base staticLink parent :: outer) index = seen outer index := by
  have passed : frameAt index (.call base staticLink parent :: outer) = frameAt index outer :=
    if_neg (Nat.not_le.mpr below)
  rw [seen, passed, seen]

/-- In its own frame a scope sees those down to the base, then what the declaration of the function
sees. -/
theorem seen_cons_of_le {base staticLink index : Nat} {outer : List Frame} (above : base ≤ index) :
    seen (.call base staticLink (frameAt staticLink outer) :: outer) index =
      scopesBelow base (index + 1) ++ seen outer staticLink := by
  have own : frameAt index (.call base staticLink (frameAt staticLink outer) :: outer) =
      .call base staticLink (frameAt staticLink outer) := if_pos above
  rw [seen, own, Frame.visible, seen]

theorem Nested.seen_le {frames : List Frame} (nested : Nested frames) {index other : Nat}
    (member : other ∈ seen frames index) : other ≤ index := by
  have rooted : (frameAt index frames).Rooted := frameAt_rooted nested.rooted index
  have above : (frameAt index frames).base ≤ index + 1 := Nat.le_succ_of_le (frameAt_base ..)
  have below : other < index + 1 := Frame.mem_visible rooted above member
  omega

theorem mem_scopesBelow_iff {base top index : Nat} :
    index ∈ scopesBelow base top ↔ base ≤ index ∧ index < top := by
  induction top with
  | zero => simp [scopesBelow]
  | succ top ih =>
    by_cases outside : top < base
    · simp only [scopesBelow, if_pos outside, List.not_mem_nil, false_iff]
      omega
    · rw [scopesBelow, if_neg outside, List.mem_cons, ih]
      omega

theorem scopesBelow_subset (base : Nat) {lower upper : Nat} (le : lower ≤ upper) :
    scopesBelow base lower ⊆ scopesBelow base upper := by
  intro index member
  have bounds := mem_scopesBelow_iff.mp member
  exact mem_scopesBelow_iff.mpr ⟨bounds.1, by omega⟩

/-- What a scope sees, sees no more than the scope does. -/
theorem Nested.seen_subset {frames : List Frame} (nested : Nested frames) {index other : Nat}
    (member : other ∈ seen frames index) : seen frames other ⊆ seen frames index := by
  induction nested generalizing index other with
  | nil =>
    have below : other < index + 1 := (mem_scopesBelow_iff.mp member).2
    exact scopesBelow_subset 0 (by omega)
  | @cons base staticLink outer nested inside linked ih =>
    by_cases above : base ≤ index
    · rw [seen_cons_of_le above] at member ⊢
      rcases List.mem_append.mp member with own | outside
      · obtain ⟨lower, upper⟩ := mem_scopesBelow_iff.mp own
        rw [seen_cons_of_le lower]
        intro third visible
        rcases List.mem_append.mp visible with near | far
        · exact List.mem_append_left _ (scopesBelow_subset base (by omega) near)
        · exact List.mem_append_right _ far
      · have upper : other ≤ staticLink := nested.seen_le outside
        have below : other < base := by omega
        rw [seen_cons_of_lt below]
        exact List.subset_append_of_subset_right _ (ih outside)
    · have indexBelow : index < base := by omega
      rw [seen_cons_of_lt indexBelow] at member ⊢
      have upper : other ≤ index := nested.seen_le member
      have otherBelow : other < base := by omega
      rw [seen_cons_of_lt otherBelow]
      exact ih member

theorem Framed.seen_innermost {context : Context} (framed : context.Framed) :
    seen context.calls (context.depth - 1) = context.visibleScopes := by
  have base := framed.base
  have above : (innermost context.calls).base ≤ context.depth - 1 := by omega
  have size : context.depth - 1 + 1 = context.depth := by omega
  rw [seen, frameAt_innermost above, size, visibleScopes]

theorem Framed.lt_depth {context : Context} (framed : context.Framed) {index : Nat}
    (visible : index ∈ context.visibleScopes) : index < context.depth := by
  rw [← framed.seen_innermost] at visible
  have below := framed.nested.seen_le visible
  have base := framed.base
  omega

/-- What is visible from a scope that is visible now, is visible now. -/
theorem Framed.seen_subset {context : Context} (framed : context.Framed) {index : Nat}
    (visible : index ∈ context.visibleScopes) : seen context.calls index ⊆ context.visibleScopes := by
  rw [← framed.seen_innermost] at visible ⊢
  exact framed.nested.seen_subset visible

theorem Framed.innermost_visible {context : Context} (framed : context.Framed) :
    context.depth - 1 ∈ context.visibleScopes := by
  have base := framed.base
  have below : (innermost context.calls).base ≤ context.depth - 1 := by omega
  have size : context.depth = context.depth - 1 + 1 := by omega
  rw [visibleScopes, size, Frame.visible_succ below]
  exact List.mem_cons_self ..

theorem Framed.pushScope {context : Context} (framed : context.Framed) :
    context.pushScope.Framed := by
  have base := framed.base
  refine ⟨framed.nested, ?_⟩
  simp only [Context.pushScope, depth, Array.size_push] at base ⊢
  omega

theorem Framed.pushFrame {context : Context} (framed : context.Framed) {home : Nat}
    (declared : home < context.depth) : (context.pushFrame home).Framed := by
  refine ⟨.cons framed.nested framed.base declared, ?_⟩
  simp [Context.pushFrame, depth, innermost, Frame.base]

theorem Framed.pushScope_visible {context : Context} (framed : context.Framed) :
    context.pushScope.visibleScopes = context.depth :: context.visibleScopes := by
  have size : context.pushScope.depth = context.depth + 1 := by simp [Context.pushScope, depth]
  have above : (innermost context.calls).base ≤ context.depth := Nat.le_of_lt framed.base
  rw [visibleScopes, size]
  exact Frame.visible_succ above

/-- Behind the scope of its parameters a function sees what its declaration sees. -/
theorem pushFrame_visible (context : Context) (home : Nat) :
    (context.pushFrame home).visibleScopes = context.depth :: seen context.calls home := by
  have size : (context.pushFrame home).depth = context.depth + 1 := by
    simp [Context.pushFrame, depth]
  rw [visibleScopes, size]
  simp only [Context.pushFrame, innermost, Frame.visible, scopesBelow_succ (Nat.le_refl _),
    scopesBelow_self, List.singleton_append, seen]

theorem findScope_visible {context : Context} {test : Scope → Bool} {index : Nat}
    (found : context.findScope test = some index) : index ∈ context.visibleScopes := by
  rw [findScope_eq] at found
  exact List.mem_of_find?_eq_some found

/-- A function that is found is held by a scope that is visible. -/
theorem getFunction_holds {context : Context} {id home : Nat} {name : String} {decl : FunctionDecl}
    (found : context.getFunction id name = .ok (decl, home)) :
    home ∈ context.visibleScopes ∧
      ∃ scope, context.scopes[home]? = some scope ∧ scope.function? id = some decl := by
  unfold getFunction at found
  cases search : context.findScope fun scope => (scope.function? id).isSome with
  | none => simp [search] at found
  | some index =>
    have visible := findScope_visible search
    cases held : (context.scopes[index]?).bind (·.function? id) with
    | none =>
      simp only [search, held, Option.bind_some, Option.map_none] at found
      cases found
    | some known =>
      simp only [search, held, Option.bind_some, Option.map_some, Except.ok.injEq,
        Prod.mk.injEq] at found
      obtain ⟨rfl, rfl⟩ := found
      exact ⟨visible, Option.bind_eq_some_iff.mp held⟩

theorem getFunction_visible {context : Context} {id home : Nat} {name : String}
    {decl : FunctionDecl} (found : context.getFunction id name = .ok (decl, home)) :
    home ∈ context.visibleScopes := (getFunction_holds found).1

end Context

end Lu
