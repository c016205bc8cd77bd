import Lu.Proofs.Run.Watched

namespace Lu

/-!
The static chain: which scopes are visible from a scope, in the order in which names are searched.
-/

/-- The indices from `base` up to, but not including, `top`, the greatest first. -/
def scopesBelow (base : Nat) : Nat → List Nat
  | 0 => []
  | top + 1 => if top < base then [] else top :: scopesBelow base top

/-- The scopes of a frame below the given index, then those around the declaration of the
function. -/
def Frame.visible : Frame → Nat → List Nat
  | .program, top => scopesBelow 0 top
  | .call base staticLink home, top => scopesBelow base top ++ home.visible (staticLink + 1)

/-- A function is declared below its frame, in a scope of the frame that it knows as its home. -/
def Frame.Rooted : Frame → Prop
  | .program => True
  | .call base staticLink home => staticLink < base ∧ home.base ≤ staticLink ∧ home.Rooted

theorem mem_scopesBelow {base top index : Nat} (member : index ∈ scopesBelow base top) :
    index < top := by
  induction top with
  | zero => simp [scopesBelow] at member
  | succ top ih =>
    unfold scopesBelow at member
    split at member
    · simp at member
    · rcases List.mem_cons.mp member with rfl | member
      · omega
      · have := ih member
        omega

theorem scopesBelow_self (base : Nat) : scopesBelow base base = [] := by
  cases base with
  | zero => rfl
  | succ top => simp [scopesBelow]

theorem scopesBelow_succ {base top : Nat} (below : base ≤ top) :
    scopesBelow base (top + 1) = top :: scopesBelow base top := by
  rw [scopesBelow, if_neg (by omega)]

theorem Frame.mem_visible {frame : Frame} (rooted : frame.Rooted) {top index : Nat}
    (above : frame.base ≤ top) (member : index ∈ frame.visible top) : index < top := by
  induction frame generalizing top with
  | program => exact mem_scopesBelow member
  | call base staticLink home ih =>
    obtain ⟨linked, homed, rest⟩ := rooted
    rcases List.mem_append.mp member with inside | outside
    · exact mem_scopesBelow inside
    · have linkAbove : home.base ≤ staticLink + 1 := by omega
      have below := ih rest linkAbove outside
      have : base ≤ top := above
      omega

theorem Frame.visible_succ {frame : Frame} {top : Nat} (above : frame.base ≤ top) :
    frame.visible (top + 1) = top :: frame.visible top := by
  cases frame with
  | program => exact scopesBelow_succ above
  | call base staticLink home =>
    simp only [visible, scopesBelow_succ (show base ≤ top from above), List.cons_append]

namespace Context

theorem searchScopes_eq (scopes : Array Scope) (test : Scope → Bool) (base top : Nat) :
    searchScopes scopes test base top =
      (scopesBelow base top).find? fun index => (scopes[index]?).any test := by
  induction top with
  | zero => rfl
  | succ top ih =>
    unfold searchScopes scopesBelow
    by_cases outside : top < base
    · simp [outside]
    · cases found : (scopes[top]?).any test <;> simp [outside, found, ih]

/-- The search meets the scopes in the order of the static chain. -/
theorem searchFrom_eq (scopes : Array Scope) (test : Scope → Bool) (frame : Frame) (top : Nat) :
    searchFrom scopes test frame top =
      (frame.visible top).find? fun index => (scopes[index]?).any test := by
  induction frame generalizing top with
  | program => exact searchScopes_eq scopes test 0 top
  | call base staticLink home ih =>
    simp only [searchFrom, Frame.visible, List.find?_append, searchScopes_eq, ih]
    cases (scopesBelow base top).find? fun index => (scopes[index]?).any test <;> rfl

/-- The scopes that a name is looked for in: those of the innermost frame, then those around the
declaration of its function, and so on. -/
def visibleScopes (context : Context) : List Nat :=
  (innermost context.calls).visible context.depth

theorem findScope_eq (context : Context) (test : Scope → Bool) :
    context.findScope test =
      context.visibleScopes.find? fun index => (context.scopes[index]?).any test :=
  searchFrom_eq ..

theorem frameAt_base (index : Nat) (frames : List Frame) : (frameAt index frames).base ≤ index := by
  induction frames with
  | nil => exact Nat.zero_le _
  | cons frame outer ih =>
    unfold frameAt
    split
    · assumption
    · exact ih

theorem frameAt_rooted {frames : List Frame} (rooted : ∀ frame ∈ frames, frame.Rooted)
    (index : Nat) : (frameAt index frames).Rooted := by
  induction frames with
  | nil => trivial
  | cons frame outer ih =>
    unfold frameAt
    split
    · exact rooted frame (List.mem_cons_self ..)
    · exact ih fun other member => rooted other (List.mem_cons_of_mem _ member)

theorem frameAt_innermost {index : Nat} {frames : List Frame}
    (above : (innermost frames).base ≤ index) : frameAt index frames = innermost frames := by
  cases frames with
  | nil => rfl
  | cons frame outer => exact if_pos above

end Context

namespace Layout

/-- The scopes that are visible from a scope, itself the first. -/
def visible (layout : Layout) (index : Nat) : List Nat :=
  (Context.frameAt index layout.frames).visible (index + 1)

/-- The innermost scope. -/
def top (layout : Layout) : Nat := layout.layers.size - 1

/-- The static chain of what runs now. -/
def chain (layout : Layout) : List Nat := layout.visible layout.top

/-- Each frame begins at a scope of its own. -/
structure Framed (layout : Layout) : Prop where
  nonempty : 0 < layout.layers.size
  rooted : ∀ frame ∈ layout.frames, frame.Rooted
  base : (Context.innermost layout.frames).base ≤ layout.top

variable {layout : Layout}

theorem visible_eq (layout : Layout) (index : Nat) :
    layout.visible index = index :: (Context.frameAt index layout.frames).visible index :=
  Frame.visible_succ (Context.frameAt_base ..)

/-- Behind a scope only scopes further out are visible. -/
theorem Framed.visible_tail (framed : layout.Framed) (index : Nat) :
    ∃ outer, layout.visible index = index :: outer ∧ ∀ other ∈ outer, other < index :=
  ⟨_, visible_eq .., fun _ member =>
    Frame.mem_visible (Context.frameAt_rooted framed.rooted index) (Context.frameAt_base ..) member⟩

theorem Framed.mem_visible (framed : layout.Framed) {index other : Nat}
    (member : other ∈ layout.visible index) : other ≤ index := by
  obtain ⟨outer, shape, below⟩ := framed.visible_tail index
  rw [shape] at member
  rcases List.mem_cons.mp member with rfl | member
  · exact Nat.le_refl _
  · exact Nat.le_of_lt (below other member)

theorem initial_framed : Layout.initial.Framed := ⟨by decide, by simp [initial], by decide⟩

theorem Framed.push (framed : layout.Framed) : layout.push.Framed := by
  refine ⟨by simp [Layout.push], framed.rooted, ?_⟩
  have base := framed.base
  simp only [Layout.push, top, Array.size_push] at base ⊢
  omega

theorem push_top (layout : Layout) : layout.push.top = layout.layers.size := by
  simp [top, Layout.push]

/-- A new scope is searched before those around it. -/
theorem Framed.push_chain (framed : layout.Framed) :
    layout.push.chain = layout.layers.size :: layout.chain := by
  have size : layout.layers.size = layout.top + 1 := by
    have := framed.nonempty
    simp only [top]
    omega
  have above : (Context.innermost layout.frames).base ≤ layout.layers.size := by
    have := framed.base
    omega
  rw [chain, push_top, visible_eq]
  congr 1
  change (Context.frameAt layout.layers.size layout.frames).visible _ =
    (Context.frameAt layout.top layout.frames).visible _
  rw [Context.frameAt_innermost above, Context.frameAt_innermost framed.base, size]

theorem Framed.pushFrame (framed : layout.Framed) {staticLink : Nat}
    (linked : staticLink < layout.layers.size) : (layout.pushFrame staticLink).Framed := by
  refine ⟨by simp [Layout.pushFrame], ?_, by simp [Layout.pushFrame, top, Context.innermost,
    Frame.base]⟩
  intro frame member
  rcases List.mem_cons.mp member with rfl | member
  · exact ⟨linked, Context.frameAt_base .., Context.frameAt_rooted framed.rooted _⟩
  · exact framed.rooted frame member

theorem pushFrame_top (layout : Layout) (staticLink : Nat) :
    (layout.pushFrame staticLink).top = layout.layers.size := by
  simp [top, Layout.pushFrame]

/-- Behind the scope of its parameters a function sees what is visible at its declaration. -/
theorem pushFrame_chain (layout : Layout) (staticLink : Nat) :
    (layout.pushFrame staticLink).chain = layout.layers.size :: layout.visible staticLink := by
  rw [chain, pushFrame_top, visible]
  simp only [Layout.pushFrame, Context.frameAt, Frame.base, Nat.le_refl, if_true, Frame.visible]
  rw [scopesBelow_succ (Nat.le_refl _), scopesBelow_self]
  rfl

/-- A call changes nothing about what is visible elsewhere. -/
theorem pushFrame_visible (layout : Layout) (staticLink : Nat) {index : Nat}
    (old : index < layout.layers.size) :
    (layout.pushFrame staticLink).visible index = layout.visible index := by
  have outside : ¬ layout.layers.size ≤ index := by omega
  exact congrArg (Frame.visible · (index + 1)) (if_neg outside)

end Layout

end Lu
