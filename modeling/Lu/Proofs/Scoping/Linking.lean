import Lu.Proofs.Scoping.Mirrored
import Mathlib.Data.List.Nodup

namespace Lu

/-!
The resolution of names obeys lexical scoping: it succeeds on just the trees that are sound at every
place, and what it stores is what lexical scoping says.
-/

/-- The places of a tree are sound, and those of the tree that is made of it are filled. -/
structure Linked (sites sites' : List Site) : Prop where
  sound : ∀ site ∈ sites, site.Sound
  filled : ∀ site ∈ sites', site.Filled

namespace Linked

variable {sites sites' more more' : List Site}

theorem nil : Linked [] [] := ⟨by simp, by simp⟩

theorem append (first : Linked sites sites') (second : Linked more more') :
    Linked (sites ++ more) (sites' ++ more') :=
  ⟨List.forall_mem_append.mpr ⟨first.sound, second.sound⟩,
    List.forall_mem_append.mpr ⟨first.filled, second.filled⟩⟩

theorem single {site site' : Site} (sound : site.Sound) (filled : site'.Filled) :
    Linked [site] [site'] :=
  ⟨by simpa using sound, by simpa using filled⟩

theorem scope {names names' : List String} (distinct : names.Nodup) (rest : Linked sites sites') :
    Linked (.scope names :: sites) (.scope names' :: sites') :=
  (show Linked [.scope names] [.scope names'] from .single distinct trivial).append rest

end Linked

section Expressions

variable {scopes : Scopes} {around : List Shown}

mutual

theorem Expr.resolveNames_linked (mirrors : scopes.Mirrors around) :
    ∀ (e : Expr) {r : Expr}, e.resolveNames scopes = .ok r →
      r.blank = e.blank ∧ Linked (e.sites around) (r.sites around)
  | .literal note value, _, run => by
    cases run
    exact ⟨rfl, .nil⟩
  | .variable note name symbol, _, run => by
    obtain ⟨s, found, run⟩ := bind_eq_ok.mp run
    obtain ⟨filled, stored, run⟩ := bind_eq_ok.mp run
    cases run
    obtain ⟨_, rfl⟩ := Attribute.set_eq_ok.mp (Check.lift_eq_ok.mp stored)
    have atName := Scopes.findVariable_eq_ok.mp found
    exact ⟨rfl, .single ⟨s, mirrors.lookup.mp atName⟩ ⟨s, rfl, mirrors.means atName⟩⟩
  | .assign note target value, _, run => by
    obtain ⟨target', atTarget, run⟩ := bind_eq_ok.mp run
    obtain ⟨value', atValue, run⟩ := bind_eq_ok.mp run
    cases run
    obtain ⟨sameTarget, targetLinked⟩ := target.resolveNames_linked mirrors atTarget
    obtain ⟨sameValue, valueLinked⟩ := value.resolveNames_linked mirrors atValue
    exact ⟨by rw [blank, sameTarget, sameValue, blank], targetLinked.append valueLinked⟩
  | .binary note op left right, _, run => by
    obtain ⟨left', atLeft, run⟩ := bind_eq_ok.mp run
    obtain ⟨right', atRight, run⟩ := bind_eq_ok.mp run
    cases run
    obtain ⟨sameLeft, leftLinked⟩ := left.resolveNames_linked mirrors atLeft
    obtain ⟨sameRight, rightLinked⟩ := right.resolveNames_linked mirrors atRight
    exact ⟨by rw [blank, sameLeft, sameRight, blank], leftLinked.append rightLinked⟩
  | .unary note op operand, _, run => by
    obtain ⟨operand', atOperand, run⟩ := bind_eq_ok.mp run
    cases run
    obtain ⟨same, linked⟩ := operand.resolveNames_linked mirrors atOperand
    exact ⟨by rw [blank, same, blank], linked⟩
  | .call note name nameSpan args callee, _, run => by
    obtain ⟨args', atArgs, run⟩ := bind_eq_ok.mp run
    obtain ⟨c, found, run⟩ := bind_eq_ok.mp run
    obtain ⟨filled, stored, run⟩ := bind_eq_ok.mp run
    cases run
    obtain ⟨_, rfl⟩ := Attribute.set_eq_ok.mp (Check.lift_eq_ok.mp stored)
    obtain ⟨same, linked⟩ := Expr.resolveAll_linked mirrors args atArgs
    have atName := Scopes.findFunction_eq_ok.mp found
    have means := mirrors.means atName
    refine ⟨?_, linked.append (.single ⟨c, mirrors.lookup.mp atName⟩ ⟨c, rfl, means⟩)⟩
    simp only [blank, blankAll_eq_map, same]

theorem Expr.resolveAll_linked (mirrors : scopes.Mirrors around) :
    ∀ (args : List Expr) {args' : List Expr}, resolveNames.resolveAll scopes args = .ok args' →
      args'.map blank = args.map blank ∧
        Linked (sites.allSites around args) (sites.allSites around args')
  | [], _, run => by
    cases run
    exact ⟨rfl, .nil⟩
  | e :: rest, _, run => by
    obtain ⟨e', atHead, run⟩ := bind_eq_ok.mp run
    obtain ⟨rest', atRest, run⟩ := bind_eq_ok.mp run
    cases run
    obtain ⟨sameHead, headLinked⟩ := e.resolveNames_linked mirrors atHead
    obtain ⟨sameRest, restLinked⟩ := Expr.resolveAll_linked mirrors rest atRest
    exact ⟨by rw [List.map_cons, sameHead, sameRest, List.map_cons], headLinked.append restLinked⟩

end

mutual

/-- A blank expression whose names mean what they should is resolved. -/
theorem Expr.resolveNames_succeeds (mirrors : scopes.Mirrors around) :
    ∀ (e : Expr), e.blank = e → (∀ site ∈ e.sites around, site.Sound) →
      ∃ r, e.resolveNames scopes = .ok r
  | .literal note value, _, _ => ⟨_, rfl⟩
  | .variable note name symbol, blank, sound => by
    obtain ⟨s, denotes⟩ := sound _ (List.mem_singleton_self _)
    have found : scopes.findVariable name note.span = .ok s :=
      Scopes.findVariable_eq_ok.mpr (mirrors.lookup.mpr denotes)
    simp only [Expr.blank, variable.injEq] at blank
    obtain ⟨-, -, rfl⟩ := blank
    exact ⟨_, bind_eq_ok.mpr ⟨s, found, rfl⟩⟩
  | .assign note target value, blank, sound => by
    simp only [Expr.blank, assign.injEq] at blank
    obtain ⟨targetSound, valueSound⟩ := List.forall_mem_append.mp sound
    obtain ⟨target', atTarget⟩ := target.resolveNames_succeeds mirrors blank.2.1 targetSound
    obtain ⟨value', atValue⟩ := value.resolveNames_succeeds mirrors blank.2.2 valueSound
    exact ⟨_, bind_eq_ok.mpr ⟨_, atTarget, bind_eq_ok.mpr ⟨_, atValue, rfl⟩⟩⟩
  | .binary note op left right, blank, sound => by
    simp only [Expr.blank, binary.injEq] at blank
    obtain ⟨leftSound, rightSound⟩ := List.forall_mem_append.mp sound
    obtain ⟨left', atLeft⟩ := left.resolveNames_succeeds mirrors blank.2.2.1 leftSound
    obtain ⟨right', atRight⟩ := right.resolveNames_succeeds mirrors blank.2.2.2 rightSound
    exact ⟨_, bind_eq_ok.mpr ⟨_, atLeft, bind_eq_ok.mpr ⟨_, atRight, rfl⟩⟩⟩
  | .unary note op operand, blank, sound => by
    simp only [Expr.blank, unary.injEq] at blank
    obtain ⟨operand', atOperand⟩ := operand.resolveNames_succeeds mirrors blank.2.2 sound
    exact ⟨_, bind_eq_ok.mpr ⟨_, atOperand, rfl⟩⟩
  | .call note name nameSpan args callee, blank, sound => by
    simp only [Expr.blank, blankAll_eq_map, call.injEq] at blank
    obtain ⟨-, -, -, blankArgs, rfl⟩ := blank
    obtain ⟨argsSound, callSound⟩ := List.forall_mem_append.mp sound
    obtain ⟨c, denotes⟩ := callSound _ (List.mem_singleton_self _)
    have found : scopes.findFunction name nameSpan = .ok c :=
      Scopes.findFunction_eq_ok.mpr (mirrors.lookup.mpr denotes)
    obtain ⟨args', atArgs⟩ := Expr.resolveAll_succeeds mirrors args blankArgs argsSound
    exact ⟨_, bind_eq_ok.mpr ⟨_, atArgs, bind_eq_ok.mpr ⟨_, found, rfl⟩⟩⟩

theorem Expr.resolveAll_succeeds (mirrors : scopes.Mirrors around) :
    ∀ (args : List Expr), args.map blank = args →
      (∀ site ∈ sites.allSites around args, site.Sound) →
      ∃ args', resolveNames.resolveAll scopes args = .ok args'
  | [], _, _ => ⟨_, rfl⟩
  | e :: rest, blank, sound => by
    simp only [List.map_cons, List.cons.injEq] at blank
    obtain ⟨headSound, restSound⟩ := List.forall_mem_append.mp sound
    obtain ⟨e', atHead⟩ := e.resolveNames_succeeds mirrors blank.1 headSound
    obtain ⟨rest', atRest⟩ := Expr.resolveAll_succeeds mirrors rest blank.2 restSound
    exact ⟨_, bind_eq_ok.mpr ⟨_, atHead, bind_eq_ok.mpr ⟨_, atRest, rfl⟩⟩⟩

end

end Expressions

section Declarations

variable {scopes : Scopes} {shown : Shown} {around : List Shown}

theorem Shown.nodup_concat {shown : Shown} (distinct : shown.names.Nodup) {name : String}
    {declaration : Declaration} :
    (Shown.names (shown ++ [(name, declaration)])).Nodup ↔ name ∉ shown.names := by
  rw [Shown.names_append, List.nodup_append_comm]
  exact List.nodup_cons.trans (and_iff_left distinct)

/-- The annotation of a variable, if there is one, names a type. -/
theorem VarDecl.resolveTypeName_succeeds (mirrors : scopes.Mirrors around) {decl : VarDecl} :
    (∃ declared, decl.resolveTypeName scopes = .ok declared) ↔
      ∀ typeName, decl.typeName = some typeName →
        decl.declared.value? = none ∧ typeName.name ∈ typeWords := by
  unfold resolveTypeName
  cases decl.typeName with
  | none => simp [pure, Except.pure]
  | some typeName => simp [bind_eq_ok, mirrors.types, and_comm]

theorem VarDecl.resolveNames_linked (mirrors : scopes.Mirrors (shown :: around))
    {kind : VariableKind} {decl r : VarDecl} {after : Scopes}
    (run : decl.resolveNames scopes kind = .ok (r, after)) :
    r.blank = decl.blank ∧
      Linked (decl.sites (shown :: around) kind) (r.sites (shown :: around) kind) ∧
      decl.name ∉ shown.names ∧
      after.Mirrors ((shown ++ [(decl.name, .variable (decl.ownSymbol kind))]) :: around) := by
  obtain ⟨init, atInit, run⟩ := bind_eq_ok.mp run
  obtain ⟨declared, atType, run⟩ := bind_eq_ok.mp run
  obtain ⟨symbol, stored, run⟩ := bind_eq_ok.mp run
  obtain ⟨bound, declares, run⟩ := bind_eq_ok.mp run
  cases run
  obtain ⟨_, rfl⟩ := Attribute.set_eq_ok.mp (Check.lift_eq_ok.mp stored)
  obtain ⟨other, mirrored⟩ := mirrors.declared declares
  obtain ⟨same, linked⟩ := decl.init.resolveNames_linked mirrors atInit
  have typed := (VarDecl.resolveTypeName_succeeds mirrors).mp ⟨declared, atType⟩
  refine ⟨by rw [blank, blank, same], ?_, other, mirrored⟩
  refine (linked.append ⟨?_, ?_⟩).append (.single trivial rfl)
  · intro site member
    obtain ⟨typeName, annotated, rfl⟩ := List.mem_map.mp member
    exact (typed typeName (by simpa using annotated)).2
  · intro site member
    obtain ⟨typeName, -, rfl⟩ := List.mem_map.mp member
    trivial

theorem VarDecl.resolveNames_succeeds (mirrors : scopes.Mirrors (shown :: around))
    {kind : VariableKind} {decl : VarDecl} (blank : decl.blank = decl)
    (sound : ∀ site ∈ decl.sites (shown :: around) kind, site.Sound)
    (other : decl.name ∉ shown.names) :
    ∃ r after, decl.resolveNames scopes kind = .ok (r, after) := by
  obtain ⟨sound, -⟩ := List.forall_mem_append.mp sound
  obtain ⟨initSound, typeSound⟩ := List.forall_mem_append.mp sound
  obtain ⟨name, nameSpan, typeName, init, declared, symbol⟩ := decl
  simp only [VarDecl.blank, VarDecl.mk.injEq, true_and] at blank
  obtain ⟨blankInit, rfl, rfl⟩ := blank
  obtain ⟨init', atInit⟩ := init.resolveNames_succeeds mirrors blankInit initSound
  have typed : ∃ declared, VarDecl.resolveTypeName scopes
      ⟨name, nameSpan, typeName, init, .unset, .unset⟩ = .ok declared :=
    (VarDecl.resolveTypeName_succeeds mirrors).mpr fun written annotated =>
      ⟨rfl, typeSound _ (List.mem_map.mpr ⟨written, by simpa using annotated, rfl⟩)⟩
  obtain ⟨declared, atType⟩ := typed
  obtain ⟨bound, declares⟩ : ∃ bound,
      scopes.declareVariable ⟨name, nameSpan, kind, .unset⟩ = .ok bound := mirrors.declare.mpr other
  exact ⟨_, bound, bind_eq_ok.mpr ⟨_, atInit, bind_eq_ok.mpr ⟨_, atType,
    bind_eq_ok.mpr ⟨_, rfl, bind_eq_ok.mpr ⟨_, declares, rfl⟩⟩⟩⟩⟩

/-- A parameter with its symbol. -/
def Param.announced (param : Param) : Param := { param with symbol := ⟨some param.ownSymbol⟩ }

theorem resolveParams_eq_ok (mirrors : scopes.Mirrors around) {params params' : List Param}
    {bindings : List VariableSymbol} :
    resolveParams scopes params = .ok (params', bindings) ↔
      (∀ param ∈ params, param.symbol.value? = none ∧ param.typeName.name ∈ typeWords) ∧
        params' = params.map Param.announced ∧ bindings = params.map Param.ownSymbol := by
  induction params generalizing params' bindings with
  | nil => simp [resolveParams, pure, Except.pure, eq_comm]
  | cons param rest ih =>
    simp only [resolveParams, bind_eq_ok, pure_eq_ok, mirrors.types, Check.lift_eq_ok,
      Attribute.set_eq_ok, Prod.exists, ih, Prod.mk.injEq, List.forall_mem_cons, List.map_cons]
    constructor
    · rintro ⟨_, ⟨word, rfl⟩, _, ⟨unset, rfl⟩, _, _, ⟨later, rfl, rfl⟩, rfl, rfl⟩
      exact ⟨⟨⟨unset, word⟩, later⟩, rfl, rfl⟩
    · rintro ⟨⟨⟨unset, word⟩, later⟩, rfl, rfl⟩
      exact ⟨_, ⟨word, rfl⟩, _, ⟨unset, rfl⟩, _, _, ⟨later, rfl, rfl⟩, rfl, rfl⟩

/-- The slots of the header are empty, and its annotations name types. -/
structure FunctionDecl.Announceable (decl : FunctionDecl) : Prop where
  symbol : decl.symbol.value? = none
  params : ∀ param ∈ decl.params, param.symbol.value? = none ∧ param.typeName.name ∈ typeWords
  result : ∀ typeName, decl.resultName = some typeName → typeName.name ∈ typeWords

theorem FunctionDecl.resolveHeader_eq_ok (mirrors : scopes.Mirrors around)
    {decl header : FunctionDecl} {function : FunctionSymbol} :
    decl.resolveHeader scopes = .ok (header, function) ↔
      decl.Announceable ∧ function = decl.ownSymbol ∧
        header = { decl with params := decl.params.map Param.announced
                             symbol := ⟨some decl.ownSymbol⟩ } := by
  have result (ty : Ty) : decl.resolveResult scopes = .ok ty ↔
      (∀ typeName, decl.resultName = some typeName → typeName.name ∈ typeWords) ∧
        ty = (decl.resultName.map TypeName.meaning).getD .void := by
    unfold resolveResult
    cases decl.resultName with
    | none => simp [pure, Except.pure, eq_comm]
    | some typeName => simp [mirrors.types]
  simp only [resolveHeader, bind_eq_ok, pure_eq_ok, Prod.exists, resolveParams_eq_ok mirrors,
    result, Check.lift_eq_ok, Attribute.set_eq_ok, Prod.mk.injEq]
  constructor
  · rintro ⟨_, _, ⟨params, rfl, rfl⟩, _, ⟨words, rfl⟩, _, ⟨unset, rfl⟩, rfl, rfl⟩
    exact ⟨⟨unset, params, words⟩, rfl, rfl⟩
  · rintro ⟨⟨unset, params, words⟩, rfl, rfl⟩
    exact ⟨_, _, ⟨params, rfl, rfl⟩, _, ⟨words, rfl⟩, _, ⟨unset, rfl⟩, rfl, rfl⟩

/-- A blank header is announceable if its annotations name types. -/
theorem FunctionDecl.announceable_of_sound {decl : FunctionDecl} (blank : decl.blank = decl)
    (sound : ∀ site ∈ decl.headerSites, site.Sound) : decl.Announceable := by
  obtain ⟨id, name, nameSpan, params, resultName, body, span, symbol⟩ := decl
  simp only [FunctionDecl.blank, FunctionDecl.mk.injEq, true_and] at blank
  obtain ⟨blankParams, -, rfl⟩ := blank
  obtain ⟨sound, resultSound⟩ := List.forall_mem_append.mp (List.forall_mem_cons.mp sound).2
  refine ⟨rfl, fun param member => ⟨?_, ?_⟩, fun typeName annotated => ?_⟩
  · have blankParam : param.blank = param :=
      List.map_inj_left.mp (blankParams.trans (List.map_id _).symm) param member
    rw [← blankParam]
    rfl
  · exact sound (.typeWord param.typeName)
      (List.mem_flatMap.mpr ⟨param, member, List.mem_cons_self ..⟩)
  · exact resultSound (.typeWord typeName)
      (List.mem_map.mpr ⟨typeName, by simpa using annotated, rfl⟩)

theorem FunctionDecl.ownSymbol_blank (decl : FunctionDecl) :
    decl.blank.ownSymbol = decl.ownSymbol := by
  cases decl
  simp only [blank, ownSymbol, List.map_map]
  rfl

theorem FunctionDecl.shown_blank (decl : FunctionDecl) : decl.blank.shown = decl.shown := by
  rw [shown, ownSymbol_blank]
  cases decl
  rfl

theorem Stmt.shown_blank (s : Stmt) : s.blank.shown = s.shown := by
  cases s with
  | function span decl => exact congrArg ([·]) decl.shown_blank
  | ifElse => rw [blank_ifElse, shown, shown] <;> nofun
  | expr | letVar | block | whileLoop | forLoop | breakLoop | continueLoop | returnValue => rfl

theorem leadingFunctions_blank (statements : List Stmt) :
    leadingFunctions (statements.map Stmt.blank) = (leadingFunctions statements).map .blank := by
  induction statements with
  | nil => rfl
  | cons s rest ih =>
    cases s with
    | function span decl => exact congrArg (decl.blank :: ·) ih
    | ifElse => rw [List.map_cons, Stmt.blank_ifElse]; rfl
    | expr | letVar | block | whileLoop | forLoop | breakLoop | continueLoop | returnValue => rfl

/-- What a list shows does not depend on its slots. -/
theorem visible_of_blank {earlier : Shown} {statements others : List Stmt}
    (same : others.map Stmt.blank = statements.map Stmt.blank) :
    visible earlier others = visible earlier statements := by
  have shown (list : List Stmt) : (leadingFunctions list).map FunctionDecl.shown =
      (leadingFunctions (list.map Stmt.blank)).map FunctionDecl.shown := by
    rw [leadingFunctions_blank, List.map_map]
    exact List.map_congr_left fun decl _ => decl.shown_blank.symm
  rw [visible, visible, shown, same, ← shown]

theorem Stmt.shown_of_blank {s other : Stmt} (same : other.blank = s.blank) :
    other.shown = s.shown := by
  rw [← other.shown_blank, same, s.shown_blank]

/-- The first of some new names can be declared, and then the others are new still. -/
theorem Scopes.Mirrors.declare_first (mirrors : scopes.Mirrors (shown :: around)) {name : String}
    {declaration : Declaration} {more : Shown} (span : Span)
    (distinct : (Shown.names (shown ++ (name, declaration) :: more)).Nodup) :
    ∃ bound, scopes.declare name declaration span = .ok bound ∧
      bound.Mirrors ((shown ++ [(name, declaration)]) :: around) ∧
      (Shown.names (shown ++ [(name, declaration)] ++ more)).Nodup := by
  rw [List.append_cons] at distinct
  have upTo := distinct.sublist ((List.sublist_append_left ..).map Prod.fst)
  have first := upTo.sublist ((List.sublist_append_left ..).map Prod.fst)
  obtain ⟨bound, run⟩ : ∃ bound, scopes.declare name declaration span = .ok bound :=
    mirrors.declare.mpr ((Shown.nodup_concat first).mp upTo)
  exact ⟨bound, run, (mirrors.declared run).2, distinct⟩

/-- Parameters can be declared just if their names differ. -/
theorem declareVariables_linked {params : List Param} {bound : Scopes}
    (mirrors : scopes.Mirrors (shown :: around)) (distinct : shown.names.Nodup)
    (run : declareVariables scopes (params.map Param.ownSymbol) = .ok bound) :
    (Shown.names (shown ++ params.map Param.shown)).Nodup ∧
      bound.Mirrors ((shown ++ params.map Param.shown) :: around) := by
  induction params generalizing scopes shown with
  | nil =>
    cases run
    simpa using ⟨distinct, mirrors⟩
  | cons param rest ih =>
    obtain ⟨between, declares, run⟩ := bind_eq_ok.mp run
    obtain ⟨other, mirrored⟩ := mirrors.declared declares
    have linked := ih mirrored ((Shown.nodup_concat distinct).mpr other) run
    rwa [List.append_assoc] at linked

theorem declareVariables_succeeds {params : List Param} (mirrors : scopes.Mirrors (shown :: around))
    (distinct : (Shown.names (shown ++ params.map Param.shown)).Nodup) :
    ∃ bound, declareVariables scopes (params.map Param.ownSymbol) = .ok bound := by
  induction params generalizing scopes shown with
  | nil => exact ⟨scopes, rfl⟩
  | cons param rest ih =>
    obtain ⟨between, declares, mirrored, later⟩ := mirrors.declare_first param.span distinct
    obtain ⟨bound, run⟩ := ih mirrored later
    exact ⟨bound, bind_eq_ok.mpr ⟨_, declares, run⟩⟩

/-- A run of functions can be declared just if their headers are in order and their names new. -/
theorem declareFunctions_linked {decls : List FunctionDecl} {bound : Scopes}
    (mirrors : scopes.Mirrors (shown :: around)) (distinct : shown.names.Nodup)
    (run : declareFunctions scopes decls = .ok bound) :
    (Shown.names (shown ++ decls.map FunctionDecl.shown)).Nodup ∧
      bound.Mirrors ((shown ++ decls.map FunctionDecl.shown) :: around) := by
  induction decls generalizing scopes shown with
  | nil =>
    cases run
    simpa using ⟨distinct, mirrors⟩
  | cons decl rest ih =>
    obtain ⟨⟨header, function⟩, atHeader, declared⟩ := bind_eq_ok.mp run
    obtain ⟨between, declares, later⟩ := bind_eq_ok.mp declared
    obtain ⟨-, rfl, -⟩ := (FunctionDecl.resolveHeader_eq_ok mirrors).mp atHeader
    obtain ⟨other, mirrored⟩ := mirrors.declared declares
    have linked := ih mirrored ((Shown.nodup_concat distinct).mpr other) later
    rwa [List.append_assoc] at linked

theorem declareFunctions_succeeds {decls : List FunctionDecl}
    (mirrors : scopes.Mirrors (shown :: around))
    (announceable : ∀ decl ∈ decls, decl.Announceable)
    (distinct : (Shown.names (shown ++ decls.map FunctionDecl.shown)).Nodup) :
    ∃ bound, declareFunctions scopes decls = .ok bound := by
  induction decls generalizing scopes shown with
  | nil => exact ⟨scopes, rfl⟩
  | cons decl rest ih =>
    obtain ⟨first, announceable⟩ := List.forall_mem_cons.mp announceable
    have atHeader := (FunctionDecl.resolveHeader_eq_ok mirrors).mpr ⟨first, rfl, rfl⟩
    obtain ⟨between, declares, mirrored, later⟩ := mirrors.declare_first decl.nameSpan distinct
    obtain ⟨bound, run⟩ := ih mirrored announceable later
    exact ⟨bound, bind_eq_ok.mpr ⟨_, atHeader, bind_eq_ok.mpr ⟨_, declares, run⟩⟩⟩

end Declarations

end Lu
