import Lu.Check.Placement
import Lu.Proofs.Run.Following
import Lu.Proofs.Tree.FreeNames
import Lu.Proofs.Tree.Functions
import Lu.Proofs.Typing.Retyping
import Lu.Proofs.Typing.Typed

namespace Lu

/-!
When a part of a program is ready to run: the checker has accepted it, and all that it can name is
there. Each part leaves the layout such that what comes after it is ready.
-/

/-- The layout after a statement that ends as usual. -/
def Layout.after (layout : Layout) : Stmt → Layout
  | .letVar _ decl => layout.declare decl.name decl.binding
  | .function _ decl => layout.define decl
  | _ => layout

theorem Layout.after_grew (layout : Layout) (s : Stmt) : layout.Grew (layout.after s) := by
  cases s <;> first | exact layout.modifyInnermost_grew _ | exact Layout.Grew.refl layout

/-- A function that is defined in a scope is ready for a call: what it needs is visible from that
scope. The program is made of the listed functions. -/
structure FunctionDecl.ClosedIn (strict : Prop) (listed : List FunctionDecl) (layout : Layout)
    (awaited : List FunctionDecl) (index : Nat) (decl : FunctionDecl) : Prop where
  around : ∃ scopes, decl.Resolved scopes ∧
    layout.Realizes strict awaited scopes decl.freeNames (layout.visible index)
  placed : decl.checkPlacement = .ok ()
  among : decl.functions.Sublist listed
  typed : strict → decl.Typed
  uncaptured : strict → decl.uncaptured = true

/-- All functions that are defined are ready for a call. -/
structure Layout.Sound (strict : Prop) (listed awaited : List FunctionDecl) (layout : Layout) :
    Prop where
  framed : layout.Framed
  closed : ∀ (index : Nat) (layer : Layer) id decl, layout.layers[index]? = some layer →
    layer.functions.lookup id = some decl →
    decl.id = id ∧ decl.ClosedIn strict listed layout awaited index

structure Expr.Ready (strict : Prop) (layout : Layout) (scopes : Scopes) (e : Expr) : Prop where
  resolved : e.Resolved scopes
  placed : e.checkPlacement = .ok ()
  typed : strict → e.Typed
  realizes : layout.Realizes strict [] scopes e.names layout.chain

/-- A jump goes where the surroundings allow it, and returns what the function around promises. -/
def Flow.Fits (strict : Prop) (around : Surroundings) (result : Option Ty) : Flow → Prop
  | .next _ => True
  | .breakLoop | .continueLoop => around.inLoop = true
  | .returned value => around.inFunction = true ∧
    (strict → ∀ ty, result = some ty → ty ≠ .void → value.type = ty)

/-- The innermost scope has no variable of the name. -/
def Layout.IsNew (layout : Layout) (name : String) : Prop := layout.owner? layout.top name = none

/-- The innermost scope has no function of the number. -/
def Layout.IsNewId (layout : Layout) (id : Nat) : Prop :=
  ∀ layer, layout.layers[layout.top]? = some layer → layer.functions.lookup id = none

/-- No function of the innermost scope needs a variable of the name from elsewhere. -/
def Layout.LeavesFree (layout : Layout) (name : String) : Prop :=
  ∀ (layer : Layer) id decl, layout.layers[layout.top]? = some layer →
    layer.functions.lookup id = some decl → name ∉ decl.freeNames

/-- What a statement declares is new where it is declared. -/
def Stmt.Declarable (strict : Prop) (layout : Layout) (awaited : List FunctionDecl) : Stmt → Prop
  | .letVar _ decl => awaited = [] ∧ layout.IsNew decl.name ∧ (strict → layout.LeavesFree decl.name)
  | .function _ decl => layout.IsNewId decl.id ∧ ∃ later, awaited = decl :: later
  | _ => awaited = []

structure Stmt.Ready (strict : Prop) (listed : List FunctionDecl) (around : Surroundings)
    (result : Option Ty) (layout : Layout) (awaited : List FunctionDecl) (scopes : Scopes)
    (s : Stmt) : Prop where
  resolved : s.Resolved scopes
  placed : s.checkPlacement around = .ok ()
  typed : strict → s.Typed result
  uncaptured : strict → s.uncaptured = true
  among : s.functions.Sublist listed
  realizes : layout.Realizes strict awaited scopes s.freeNames layout.chain
  declarable : s.Declarable strict layout awaited

/-- The functions that are awaited in front of some statements. -/
def awaitedBy (inRun : Bool) (statements : List Stmt) : List FunctionDecl :=
  if inRun then leadingFunctions statements else []

structure Stmt.AllReady (strict : Prop) (listed : List FunctionDecl) (around : Surroundings)
    (result : Option Ty) (layout : Layout) (scopes : Scopes) (inRun : Bool)
    (statements : List Stmt) : Prop where
  resolved : Stmt.AllResolved scopes inRun statements
  placed : Stmt.checkPlacements around statements = .ok ()
  typed : strict → Stmt.AllTyped result statements
  uncaptured : strict → Stmt.allUncaptured statements = true
  among : (Stmt.allFunctions statements).Sublist listed
  realizes : layout.Realizes strict (awaitedBy inRun statements) scopes
    (Stmt.allFreeNames statements) layout.chain
  /-- The checker knows all that the innermost scope holds. -/
  exact : ∀ name, scopes.IsNew name → layout.IsNew name
  newIds : ∀ decl ∈ Stmt.allFunctions statements, layout.IsNewId decl.id
  leavesFree : strict → ∀ s ∈ statements, ∀ name ∈ s.bound, layout.LeavesFree name

section Layouts

variable {strict : Prop} {listed awaited : List FunctionDecl} {layout other : Layout}

theorem Layout.initial_sound : Layout.initial.Sound strict listed [] := by
  refine ⟨Layout.initial_framed, fun index layer id decl atLayer known => ?_⟩
  cases index with
  | zero => cases atLayer; cases known
  | succ index => simp [Layout.initial] at atLayer

theorem FunctionDecl.ClosedIn.transport {index index' : Nat} {decl : FunctionDecl}
    {more : List FunctionDecl} (closed : decl.ClosedIn strict listed layout awaited index)
    (carry : ∀ scopes, layout.Realizes strict awaited scopes decl.freeNames (layout.visible index) →
      other.Realizes strict more scopes decl.freeNames (other.visible index')) :
    decl.ClosedIn strict listed other more index' := by
  obtain ⟨⟨scopes, resolved, realizes⟩, placed, among, typed, uncaptured⟩ := closed
  exact ⟨⟨scopes, resolved, carry scopes realizes⟩, placed, among, typed, uncaptured⟩

/-- Entering a scope keeps all functions ready. -/
theorem Layout.Sound.enter (sound : layout.Sound strict listed []) (framed : other.Framed)
    (layers : other.layers = layout.layers.push {})
    (visible : ∀ index, index < layout.layers.size → other.visible index = layout.visible index) :
    other.Sound strict listed [] := by
  refine ⟨framed, fun index layer id decl atLayer known => ?_⟩
  rw [layers, Array.getElem?_push] at atLayer
  split at atLayer
  · cases atLayer
    cases known
  · obtain ⟨bound, -⟩ := Array.getElem?_eq_some_iff.mp atLayer
    obtain ⟨same, closed⟩ := sound.closed index layer id decl atLayer known
    refine ⟨same, closed.transport fun scopes realizes => ?_⟩
    rw [visible index bound]
    refine realizes.congr fun i member => ?_
    have below := sound.framed.mem_visible member
    rw [layers, Array.getElem?_push, if_neg (by omega)]

theorem Layout.Sound.push (sound : layout.Sound strict listed []) :
    layout.push.Sound strict listed [] :=
  sound.enter sound.framed.push rfl fun _ _ => rfl

theorem Layout.Sound.pushFrame (sound : layout.Sound strict listed []) {staticLink : Nat}
    (linked : staticLink < layout.layers.size) :
    (layout.pushFrame staticLink).Sound strict listed [] :=
  sound.enter (sound.framed.pushFrame linked) rfl fun _ old => layout.pushFrame_visible staticLink old

theorem Layout.Sound.await (sound : layout.Sound strict listed []) (awaited : List FunctionDecl) :
    layout.Sound strict listed awaited := by
  refine ⟨sound.framed, fun index layer id decl atLayer known => ?_⟩
  obtain ⟨same, closed⟩ := sound.closed index layer id decl atLayer known
  exact ⟨same, closed.transport fun scopes realizes => realizes.await awaited⟩

theorem Layout.Sound.declare {name : String} {symbol : VariableSymbol}
    (sound : layout.Sound strict listed []) (isNew : layout.IsNew name)
    (apart : strict → layout.LeavesFree name) :
    (layout.declare name symbol).Sound strict listed [] := by
  have grew := layout.modifyInnermost_grew
    fun layer => { layer with owners := (name, symbol) :: layer.owners }
  refine ⟨grew.framed sound.framed, fun index layer id decl atLayer known => ?_⟩
  rw [Layout.declare, Layout.layers_modifyInnermost] at atLayer
  split at atLayer
  · rename_i atTop
    subst atTop
    obtain ⟨old, atOld, rfl⟩ := Option.map_eq_some_iff.mp atLayer
    obtain ⟨same, closed⟩ := sound.closed _ old id decl atOld known
    exact ⟨same, closed.transport fun scopes realizes =>
      realizes.declare isNew fun holds => apart holds old id decl atOld known⟩
  · rename_i notTop
    obtain ⟨bound, -⟩ := Array.getElem?_eq_some_iff.mp atLayer
    obtain ⟨same, closed⟩ := sound.closed index layer id decl atLayer known
    refine ⟨same, closed.transport fun scopes realizes => realizes.congr fun i member => ?_⟩
    have below := sound.framed.mem_visible member
    refine grew.outer i fun atTop => notTop ?_
    simp only [Layout.top] at atTop ⊢
    omega

theorem Layout.Sound.define {decl : FunctionDecl}
    (sound : layout.Sound strict listed (decl :: awaited)) (isNew : layout.IsNewId decl.id)
    (sameId : decl.binding.id = decl.id)
    (closed : decl.ClosedIn strict listed (layout.define decl) awaited layout.top) :
    (layout.define decl).Sound strict listed awaited := by
  have grew := layout.modifyInnermost_grew
    fun layer => { layer with functions := (decl.id, decl) :: layer.functions }
  have carry : ∀ (index : Nat) (layer : Layer) id (old : FunctionDecl),
      layout.layers[index]? = some layer →
      layer.functions.lookup id = some old →
      old.id = id ∧ old.ClosedIn strict listed (layout.define decl) awaited index := by
    intro index layer id old atLayer known
    obtain ⟨same, oldClosed⟩ := sound.closed index layer id old atLayer known
    exact ⟨same, oldClosed.transport fun scopes realizes => realizes.define isNew sameId⟩
  refine ⟨grew.framed sound.framed, fun index layer id old atLayer known => ?_⟩
  rw [Layout.define, Layout.layers_modifyInnermost] at atLayer
  split at atLayer
  · rename_i atTop
    subst atTop
    obtain ⟨before, atBefore, rfl⟩ := Option.map_eq_some_iff.mp atLayer
    rw [List.lookup_cons] at known
    split at known
    · rename_i same
      cases known
      exact ⟨(beq_iff_eq.mp same).symm, closed⟩
    · exact carry _ before id old atBefore known
  · exact carry index layer id old atLayer known

theorem FunctionDecl.Resolved.header {decl : FunctionDecl} {scopes : Scopes}
    (resolved : decl.Resolved scopes) : decl.HeaderResolved := by
  cases decl
  exact resolved.1

/-- A statement is a `let`, a function, or one that declares nothing for those after it. -/
theorem Stmt.kinds (s : Stmt) :
    (∃ span decl, s = .letVar span decl) ∨ (∃ span decl, s = .function span decl) ∨
      s.isFunction = false ∧ s.bound = [] ∧ (∀ layout : Layout, layout.after s = layout) ∧
        (∀ scopes : Scopes, scopes.after s = scopes) ∧
        ∀ strict layout awaited, s.Declarable strict layout awaited = (awaited = []) := by
  cases s with
  | letVar span decl => exact .inl ⟨span, decl, rfl⟩
  | function span decl => exact .inr (.inl ⟨span, decl, rfl⟩)
  | expr | block | ifElse | whileLoop | forLoop | breakLoop | continueLoop | returnValue =>
    exact .inr (.inr ⟨rfl, rfl, fun _ => rfl, fun _ => rfl, fun _ _ _ => rfl⟩)

variable {around : Surroundings} {result : Option Ty} {scopes : Scopes} {inRun : Bool} {s : Stmt}
  {rest : List Stmt}

/-- What a statement declares becomes part of the layout, and all functions stay ready. -/
theorem Stmt.Ready.after_sound (ready : s.Ready strict listed around result layout awaited scopes)
    (sound : layout.Sound strict listed awaited) :
    (layout.after s).Sound strict listed awaited.tail := by
  obtain ⟨resolved, placed, typed, uncaptured, among, realizes, declarable⟩ := ready
  obtain ⟨span, decl, rfl⟩ | ⟨span, decl, rfl⟩ | ⟨-, -, stays, -, awaits⟩ := s.kinds
  · obtain ⟨rfl, isNew, leavesFree⟩ := declarable
    exact sound.declare isNew leavesFree
  · obtain ⟨isNew, later, rfl⟩ := declarable
    have sameId := resolved.header.id
    refine sound.define isNew sameId ⟨⟨scopes, resolved, ?_⟩, placed, among, typed, uncaptured⟩
    exact realizes.define isNew sameId
  · rw [awaits] at declarable
    subst declarable
    rw [stays]
    exact sound

theorem Stmt.AllReady.entering
    (ready : Stmt.AllReady strict listed around result layout scopes inRun rest)
    (framed : layout.Framed) :
    layout.Realizes strict (leadingFunctions rest) (scopes.entering inRun rest)
      (Stmt.allFreeNames rest) layout.chain := by
  cases inRun with
  | true => exact ready.realizes
  | false =>
    obtain ⟨outer, chain, -⟩ := framed.visible_tail layout.top
    have realizes := ready.realizes
    rw [Layout.chain, chain] at realizes ⊢
    exact (realizes.await _).bindFunctions fun _ member => member

theorem Layout.Sound.entering (sound : layout.Sound strict listed (awaitedBy inRun rest)) :
    layout.Sound strict listed (leadingFunctions rest) := by
  cases inRun with
  | true => exact sound
  | false => exact sound.await _

theorem Scopes.isNew_bindFunctions {decls : List FunctionDecl} {name : String}
    (isNew : (scopes.bindFunctions decls).IsNew name) : scopes.IsNew name := by
  induction decls generalizing scopes with
  | nil => exact isNew
  | cons decl decls ih => exact ((scopes.isNew_bind ..).mp (ih isNew)).2

theorem Scopes.isNew_entering {name : String} (isNew : (scopes.entering inRun rest).IsNew name) :
    scopes.IsNew name := by
  cases inRun with
  | true => exact isNew
  | false => exact Scopes.isNew_bindFunctions isNew

theorem Stmt.AllReady.head
    (ready : Stmt.AllReady strict listed around result layout scopes inRun (s :: rest))
    (framed : layout.Framed) :
    s.Ready strict listed around result layout (leadingFunctions (s :: rest))
      (scopes.entering inRun (s :: rest)) := by
  have realizes := ready.entering framed
  obtain ⟨resolved, placed, typed, uncaptured, among, -, exact, newIds, leavesFree⟩ := ready
  obtain ⟨_, placed, -⟩ := bind_eq_ok.mp placed
  have free : ∀ name ∈ s.freeNames, name ∈ Stmt.allFreeNames (s :: rest) :=
    fun name member => List.mem_append_left _ member
  refine ⟨resolved.2.1, placed, fun holds => (typed holds).1, fun holds => ?_,
    (List.sublist_append_left ..).trans among, realizes.subset free, ?_⟩
  · have all := uncaptured holds
    simp only [Stmt.allUncaptured, Bool.and_eq_true] at all
    exact all.1.1
  · obtain ⟨span, decl, rfl⟩ | ⟨span, decl, rfl⟩ | ⟨plain, -, -, -, awaits⟩ := s.kinds
    · have isNew := Scopes.isNew_entering resolved.2.1.isNew
      exact ⟨rfl, exact _ isNew, fun holds =>
        leavesFree holds _ (List.mem_cons_self ..) _ (List.mem_singleton_self _)⟩
    · refine ⟨newIds decl ?_, leadingFunctions rest, rfl⟩
      simp only [Stmt.allFunctions, Stmt.functions, decl.functions_eq]
      simp
    · rw [awaits]
      exact leadingFunctions_eq_nil rest plain

theorem Layout.isNewId_declare {name : String} {symbol : VariableSymbol} {id : Nat}
    (isNew : layout.IsNewId id) : (layout.declare name symbol).IsNewId id := by
  intro layer atLayer
  rw [Layout.declare, Layout.modifyInnermost_top, Layout.layers_modifyInnermost,
    if_pos rfl] at atLayer
  obtain ⟨old, atOld, rfl⟩ := Option.map_eq_some_iff.mp atLayer
  exact isNew old atOld

theorem Layout.isNewId_define {decl : FunctionDecl} {id : Nat} (isNew : layout.IsNewId id)
    (different : id ≠ decl.id) : (layout.define decl).IsNewId id := by
  intro layer atLayer
  rw [Layout.define, Layout.modifyInnermost_top, Layout.layers_modifyInnermost,
    if_pos rfl] at atLayer
  obtain ⟨old, atOld, rfl⟩ := Option.map_eq_some_iff.mp atLayer
  rw [List.lookup_cons, beq_eq_false_iff_ne.mpr different]
  exact isNew old atOld

theorem Layout.leavesFree_declare {name other : String} {symbol : VariableSymbol}
    (leavesFree : layout.LeavesFree other) : (layout.declare name symbol).LeavesFree other := by
  intro layer id decl atLayer known
  rw [Layout.declare, Layout.modifyInnermost_top, Layout.layers_modifyInnermost,
    if_pos rfl] at atLayer
  obtain ⟨old, atOld, rfl⟩ := Option.map_eq_some_iff.mp atLayer
  exact leavesFree old id decl atOld known

theorem Layout.leavesFree_define {decl : FunctionDecl} {name : String}
    (leavesFree : layout.LeavesFree name) (notFree : name ∉ decl.freeNames) :
    (layout.define decl).LeavesFree name := by
  intro layer id other atLayer known
  rw [Layout.define, Layout.modifyInnermost_top, Layout.layers_modifyInnermost,
    if_pos rfl] at atLayer
  obtain ⟨old, atOld, rfl⟩ := Option.map_eq_some_iff.mp atLayer
  rw [List.lookup_cons] at known
  split at known
  · cases known
    exact notFree
  · exact leavesFree old id other atOld known

theorem Layout.isNew_define {decl : FunctionDecl} {name : String} (isNew : layout.IsNew name) :
    (layout.define decl).IsNew name := by
  unfold Layout.IsNew Layout.owner? at isNew ⊢
  rw [Layout.define, Layout.modifyInnermost_top, Layout.layers_modifyInnermost, if_pos rfl]
  cases atLayer : layout.layers[layout.top]? with
  | none => rfl
  | some layer =>
    rw [atLayer] at isNew
    exact isNew

/-- The functions of a program are told apart by their numbers, also by those of its parts. -/
theorem FunctionDecl.id_ne {decl other : FunctionDecl} {span : Span}
    (distinct : (listed.map FunctionDecl.id).Nodup)
    (among : (Stmt.allFunctions (.function span decl :: rest)).Sublist listed)
    (member : other ∈ Stmt.allFunctions rest) : other.id ≠ decl.id := by
  have nodup := (among.map FunctionDecl.id).nodup distinct
  simp only [Stmt.allFunctions, Stmt.functions, decl.functions_eq, List.map_append,
    List.nodup_append, List.map_cons, List.map_nil] at nodup
  intro same
  exact nodup.2.2 decl.id (by simp) other.id (List.mem_map_of_mem member) same.symm

theorem Layout.Realizes.bind {awaited : List FunctionDecl} {name : String}
    {symbol : VariableSymbol} {free later : List String} (framed : layout.Framed)
    (realizes : layout.Realizes strict awaited scopes free layout.chain)
    (each : ∀ other ∈ later, other = name ∨ other ∈ free) :
    (layout.declare name symbol).Realizes strict awaited (scopes.bind name (.variable symbol)) later
      (layout.declare name symbol).chain := by
  obtain ⟨outer, chain, below⟩ := framed.visible_tail layout.top
  have grew : layout.Grew (layout.declare name symbol) := Layout.modifyInnermost_grew _ _
  rw [grew.chain]
  rw [Layout.chain, chain] at realizes ⊢
  exact realizes.bindVariable below each

/-- After a statement the rest is ready. -/
theorem Stmt.AllReady.tail (distinct : (listed.map FunctionDecl.id).Nodup)
    (ready : Stmt.AllReady strict listed around result layout scopes inRun (s :: rest))
    (framed : layout.Framed) :
    Stmt.AllReady strict listed around result (layout.after s)
      ((scopes.entering inRun (s :: rest)).after s) s.isFunction rest := by
  have realizes := ready.entering framed
  obtain ⟨resolved, placed, typed, uncaptured, among, -, exact, newIds, leavesFree⟩ := ready
  obtain ⟨_, -, placed⟩ := bind_eq_ok.mp placed
  have grew := layout.after_grew s
  have laterUncaptured : strict → s.leavesAlone rest = true ∧ Stmt.allUncaptured rest = true := by
    intro holds
    have all := uncaptured holds
    simp only [Stmt.allUncaptured, Bool.and_eq_true] at all
    exact ⟨all.1.2, all.2⟩
  have laterNew : ∀ name, (scopes.entering inRun (s :: rest)).IsNew name → layout.IsNew name :=
    fun name isNew => exact name (Scopes.isNew_entering isNew)
  have laterIds : ∀ decl ∈ Stmt.allFunctions rest, layout.IsNewId decl.id :=
    fun decl member => newIds decl (List.mem_append_right _ member)
  have laterFree : strict → ∀ later ∈ rest, ∀ name ∈ later.bound, layout.LeavesFree name :=
    fun holds later member => leavesFree holds later (List.mem_cons_of_mem _ member)
  refine ⟨resolved.2.2, placed, fun holds => (typed holds).2, fun holds => (laterUncaptured holds).2,
    (List.sublist_append_right ..).trans among, ?_, ?_, ?_, ?_⟩
  · obtain ⟨span, decl, rfl⟩ | ⟨span, decl, rfl⟩ | ⟨plain, unbound, stays, same, -⟩ := s.kinds
    · exact realizes.bind framed fun name member => eq_or_mem_namesExcept member
    · have sameId := resolved.2.1.header.id
      have free : ∀ name ∈ Stmt.allFreeNames rest,
          name ∈ Stmt.allFreeNames (.function span decl :: rest) := fun name member =>
        List.mem_append_right _ (mem_namesExcept.mpr ⟨member, by simp [Stmt.bound]⟩)
      rw [grew.chain]
      refine (realizes.subset free).define (newIds decl ?_) sameId
      simp only [Stmt.allFunctions, Stmt.functions, decl.functions_eq]
      simp
    · rw [stays, same, plain]
      rw [leadingFunctions_eq_nil rest plain] at realizes
      refine realizes.subset fun name member => ?_
      exact List.mem_append_right _ (mem_namesExcept.mpr ⟨member, by simp [unbound]⟩)
  · intro name isNew
    obtain ⟨span, decl, rfl⟩ | ⟨span, decl, rfl⟩ | ⟨plain, unbound, stays, same, -⟩ := s.kinds
    · obtain ⟨different, isNew⟩ := (Scopes.isNew_bind ..).mp isNew
      rw [Layout.IsNew, grew.top, Layout.after, Layout.owner?_declare_of_ne different]
      exact laterNew name isNew
    · exact Layout.isNew_define (laterNew name isNew)
    · rw [stays]
      rw [same] at isNew
      exact laterNew name isNew
  · intro decl' member
    obtain ⟨span, decl, rfl⟩ | ⟨span, decl, rfl⟩ | ⟨plain, unbound, stays, same, -⟩ := s.kinds
    · exact Layout.isNewId_declare (laterIds decl' member)
    · exact Layout.isNewId_define (laterIds decl' member) (FunctionDecl.id_ne distinct among member)
    · rw [stays]
      exact laterIds decl' member
  · intro holds later member name bound
    obtain ⟨span, decl, rfl⟩ | ⟨span, decl, rfl⟩ | ⟨plain, unbound, stays, same, -⟩ := s.kinds
    · exact Layout.leavesFree_declare (laterFree holds later member name bound)
    · have alone := (laterUncaptured holds).1
      simp only [Stmt.leavesAlone, List.all_eq_true, decide_eq_true_eq] at alone
      exact Layout.leavesFree_define (laterFree holds later member name bound)
        (alone later member name bound)
    · rw [stays]
      exact laterFree holds later member name bound

end Layouts

end Lu
