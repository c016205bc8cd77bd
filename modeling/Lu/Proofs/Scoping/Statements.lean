import Lu.Proofs.Scoping.Linking

namespace Lu

/-!
Lexical scoping of statements: the names that a list declares enter the scopes in its order, those
of a run of functions all at once, and each statement is resolved with what is visible at it.
-/

variable {scopes : Scopes} {shown : Shown} {around : List Shown}

theorem Shown.names_params (params : List Param) :
    Shown.names (params.map Param.shown) = params.map Param.name := List.map_map

theorem VarDecl.shown_of_blank {decl other : VarDecl} (same : other.blank = decl.blank)
    (kind : VariableKind) : other.ownSymbol kind = decl.ownSymbol kind := by
  cases decl
  cases other
  simp only [blank, VarDecl.mk.injEq] at same
  obtain ⟨rfl, rfl, -⟩ := same
  rfl

theorem ForInit.shown_of_blank {init other : ForInit} (same : other.blank = init.blank) :
    other.shown = init.shown := by
  cases init with
  | letVar decl =>
    cases other with
    | letVar decl' =>
      have own := VarDecl.shown_of_blank (ForInit.letVar.inj same) .iterator
      have name : decl'.name = decl.name := congrArg VariableSymbol.name own
      rw [shown, shown, own, name]
    | assign e => cases same
  | assign e =>
    cases other with
    | letVar decl => cases same
    | assign e' => rfl

/-- The first functions of a list are among what it declares. -/
theorem leadingFunctions_shown (statements : List Stmt) :
    (leadingFunctions statements).map FunctionDecl.shown <+: statements.flatMap Stmt.shown := by
  induction statements with
  | nil => exact List.nil_prefix
  | cons s rest ih =>
    cases kind : s.isFunction with
    | true =>
      cases s with
      | function span decl => exact List.prefix_cons_inj _ |>.mpr ih
      | expr | letVar | block | ifElse | whileLoop | forLoop | breakLoop | continueLoop
      | returnValue => cases kind
    | false =>
      rw [leadingFunctions_eq_nil rest kind]
      exact List.nil_prefix

theorem leadingFunctions_headerSites {earlier : Shown} {statements : List Stmt}
    {decl : FunctionDecl} (member : decl ∈ leadingFunctions statements) {site : Site}
    (inHeader : site ∈ decl.headerSites) : site ∈ Stmt.allSites around earlier statements := by
  induction statements generalizing earlier with
  | nil => cases member
  | cons s rest ih =>
    cases s with
    | function span first =>
      rcases List.mem_cons.mp member with rfl | member
      · cases decl
        exact List.mem_append_left _ (List.mem_append_left _ inHeader)
      · exact List.mem_append_right _ (ih member)
    | expr | letVar | block | ifElse | whileLoop | forLoop | breakLoop | continueLoop
    | returnValue => cases member

theorem ForInit.resolveNames_linked (mirrors : scopes.Mirrors ([] :: around)) {init r : ForInit}
    {after : Scopes} (run : init.resolveNames scopes = .ok (r, after)) :
    r.blank = init.blank ∧ Linked (init.sites ([] :: around)) (r.sites ([] :: around)) ∧
      init.shown.names.Nodup ∧ after.Mirrors (init.shown :: around) := by
  cases init with
  | letVar decl =>
    obtain ⟨⟨decl', bound⟩, atDecl, run⟩ := bind_eq_ok.mp run
    cases run
    obtain ⟨same, linked, -, mirrored⟩ := VarDecl.resolveNames_linked mirrors atDecl
    exact ⟨congrArg ForInit.letVar same, linked, List.nodup_singleton _, mirrored⟩
  | assign e =>
    obtain ⟨e', atExpr, run⟩ := bind_eq_ok.mp run
    cases run
    obtain ⟨same, linked⟩ := e.resolveNames_linked mirrors atExpr
    exact ⟨congrArg ForInit.assign same, linked, List.nodup_nil, mirrors⟩

theorem ForInit.resolveNames_succeeds (mirrors : scopes.Mirrors ([] :: around)) {init : ForInit}
    (blank : init.blank = init) (sound : ∀ site ∈ init.sites ([] :: around), site.Sound) :
    ∃ r after, init.resolveNames scopes = .ok (r, after) := by
  cases init with
  | letVar decl =>
    obtain ⟨r, after, run⟩ := VarDecl.resolveNames_succeeds mirrors (ForInit.letVar.inj blank) sound
      (List.not_mem_nil)
    exact ⟨_, after, bind_eq_ok.mpr ⟨_, run, rfl⟩⟩
  | assign e =>
    obtain ⟨r, run⟩ := e.resolveNames_succeeds mirrors (ForInit.assign.inj blank) sound
    exact ⟨_, scopes, bind_eq_ok.mpr ⟨_, run, rfl⟩⟩

/-- A statement that declares nothing leaves the scopes as they are. -/
theorem Scopes.Mirrors.unchanged (mirrors : scopes.Mirrors (shown :: around))
    (distinct : shown.names.Nodup) {s : Stmt} (nothing : s.shown = []) :
    (Shown.names (shown ++ s.shown)).Nodup ∧ scopes.Mirrors ((shown ++ s.shown) :: around) := by
  rw [nothing, List.append_nil]
  exact ⟨distinct, mirrors⟩

/-- With its symbols stored, a header is filled. -/
theorem FunctionDecl.headerSites_linked {decl : FunctionDecl} (announceable : decl.Announceable)
    (body : Block) : Linked decl.headerSites
      (FunctionDecl.headerSites { decl with params := decl.params.map Param.announced, body
                                            symbol := ⟨some decl.ownSymbol⟩ }) := by
  have own : decl.ownSymbol = FunctionDecl.ownSymbol { decl with
      params := decl.params.map Param.announced, body, symbol := ⟨some decl.ownSymbol⟩ } := by
    simp only [ownSymbol, List.map_map]
    rfl
  have function : Linked [.declaration (.function (.user decl.ownSymbol))
        (decl.symbol.value?.map fun s => .function (.user s))]
      [.declaration (.function (.user (FunctionDecl.ownSymbol { decl with
        params := decl.params.map Param.announced, body, symbol := ⟨some decl.ownSymbol⟩ })))
        (some (.function (.user decl.ownSymbol)))] :=
    .single trivial (congrArg (fun symbol => some (Declaration.function (.user symbol))) own)
  refine function.append (.append ⟨?_, ?_⟩ ⟨?_, ?_⟩)
  · intro site member
    obtain ⟨param, inParams, member⟩ := List.mem_flatMap.mp member
    rcases List.mem_pair.mp member with rfl | rfl
    · exact (announceable.params param inParams).2
    · trivial
  · intro site member
    obtain ⟨announced, inParams, member⟩ := List.mem_flatMap.mp member
    obtain ⟨param, -, rfl⟩ := List.mem_map.mp inParams
    rcases List.mem_pair.mp member with rfl | rfl
    · trivial
    · exact rfl
  · intro site member
    obtain ⟨typeName, annotated, rfl⟩ := List.mem_map.mp member
    exact announceable.result typeName (by simpa using annotated)
  · intro site member
    obtain ⟨typeName, -, rfl⟩ := List.mem_map.mp member
    trivial

theorem Stmt.linked_cons {earlier : Shown} {s s' : Stmt} {rest rest' : List Stmt}
    (sameHead : s'.blank = s.blank) (sameRest : rest'.map Stmt.blank = rest.map Stmt.blank)
    (head : Linked (s.sites (visible earlier (s :: rest) :: around))
      (s'.sites (visible earlier (s :: rest) :: around)))
    (tail : Linked (Stmt.allSites around (earlier ++ s.shown) rest)
      (Stmt.allSites around (earlier ++ s.shown) rest')) :
    (s' :: rest').map Stmt.blank = (s :: rest).map Stmt.blank ∧
      Linked (Stmt.allSites around earlier (s :: rest))
        (Stmt.allSites around earlier (s' :: rest')) := by
  have same : (s' :: rest').map Stmt.blank = (s :: rest).map Stmt.blank := by
    rw [List.map_cons, sameHead, sameRest, List.map_cons]
  refine ⟨same, ?_⟩
  rw [Stmt.allSites, Stmt.allSites, visible_of_blank same, Stmt.shown_of_blank sameHead]
  exact head.append tail

mutual

theorem Stmt.resolveNames_linked :
    ∀ (s : Stmt) {scopes after : Scopes} {shown : Shown} {around : List Shown} {r : Stmt},
      scopes.Mirrors (shown :: around) → shown.names.Nodup →
      s.resolveNames scopes = .ok (r, after) →
      r.blank = s.blank ∧ Linked (s.sites (shown :: around)) (r.sites (shown :: around)) ∧
        (s.isFunction = false → (Shown.names (shown ++ s.shown)).Nodup ∧
          after.Mirrors ((shown ++ s.shown) :: around))
  | .expr span e, _, _, _, _, _, mirrors, distinct, run => by
    obtain ⟨e', atExpr, run⟩ := bind_eq_ok.mp run
    cases run
    obtain ⟨same, linked⟩ := e.resolveNames_linked mirrors atExpr
    exact ⟨by simp only [Stmt.blank, same], linked, fun _ => mirrors.unchanged distinct rfl⟩
  | .letVar span decl, _, _, _, _, _, mirrors, distinct, run => by
    obtain ⟨⟨decl', bound⟩, atDecl, run⟩ := bind_eq_ok.mp run
    cases run
    obtain ⟨same, linked, other, mirrored⟩ := VarDecl.resolveNames_linked mirrors atDecl
    exact ⟨by simp only [Stmt.blank, same], linked,
      fun _ => ⟨(Shown.nodup_concat distinct).mpr other, mirrored⟩⟩
  | .function span decl, _, _, _, _, _, mirrors, distinct, run => by
    obtain ⟨decl', atDecl, run⟩ := bind_eq_ok.mp run
    cases run
    obtain ⟨same, linked⟩ := decl.resolveNames_linked mirrors atDecl
    exact ⟨by simp only [Stmt.blank, same], linked, nofun⟩
  | .block span body, _, _, _, _, _, mirrors, distinct, run => by
    obtain ⟨body', atBody, run⟩ := bind_eq_ok.mp run
    cases run
    obtain ⟨same, linked⟩ := body.resolveNames_linked mirrors atBody
    exact ⟨by simp only [Stmt.blank, same], linked, fun _ => mirrors.unchanged distinct rfl⟩
  | .ifElse span condition thenBranch none, _, _, _, _, _, mirrors, distinct, run => by
    obtain ⟨condition', atCondition, run⟩ := bind_eq_ok.mp run
    obtain ⟨thenBranch', atThen, run⟩ := bind_eq_ok.mp run
    cases run
    obtain ⟨sameCondition, conditionLinked⟩ := condition.resolveNames_linked mirrors atCondition
    obtain ⟨sameThen, thenLinked⟩ := thenBranch.resolveNames_linked mirrors atThen
    exact ⟨by simp only [Stmt.blank, sameCondition, sameThen],
      conditionLinked.append thenLinked, fun _ => mirrors.unchanged distinct rfl⟩
  | .ifElse span condition thenBranch (some elseBranch), _, _, _, _, _, mirrors, distinct, run => by
    obtain ⟨condition', atCondition, run⟩ := bind_eq_ok.mp run
    obtain ⟨thenBranch', atThen, run⟩ := bind_eq_ok.mp run
    obtain ⟨elseBranch', atElse, run⟩ := bind_eq_ok.mp run
    cases run
    obtain ⟨sameCondition, conditionLinked⟩ := condition.resolveNames_linked mirrors atCondition
    obtain ⟨sameThen, thenLinked⟩ := thenBranch.resolveNames_linked mirrors atThen
    obtain ⟨sameElse, elseLinked⟩ := elseBranch.resolveNames_linked mirrors atElse
    exact ⟨by simp only [Stmt.blank, sameCondition, sameThen, sameElse],
      (conditionLinked.append thenLinked).append elseLinked,
      fun _ => mirrors.unchanged distinct rfl⟩
  | .whileLoop span condition body, _, _, _, _, _, mirrors, distinct, run => by
    obtain ⟨condition', atCondition, run⟩ := bind_eq_ok.mp run
    obtain ⟨body', atBody, run⟩ := bind_eq_ok.mp run
    cases run
    obtain ⟨sameCondition, conditionLinked⟩ := condition.resolveNames_linked mirrors atCondition
    obtain ⟨sameBody, bodyLinked⟩ := body.resolveNames_linked mirrors atBody
    exact ⟨by simp only [Stmt.blank, sameCondition, sameBody],
      conditionLinked.append bodyLinked, fun _ => mirrors.unchanged distinct rfl⟩
  | .forLoop span init condition step body, _, _, shown, around, _, mirrors, distinct, run => by
    obtain ⟨⟨init', inner⟩, atInit, run⟩ := bind_eq_ok.mp run
    obtain ⟨condition', atCondition, run⟩ := bind_eq_ok.mp run
    obtain ⟨step', atStep, run⟩ := bind_eq_ok.mp run
    obtain ⟨body', atBody, run⟩ := bind_eq_ok.mp run
    cases run
    obtain ⟨sameInit, initLinked, new, within⟩ := ForInit.resolveNames_linked mirrors.push atInit
    obtain ⟨sameCondition, conditionLinked⟩ := condition.resolveNames_linked within atCondition
    obtain ⟨sameStep, stepLinked⟩ := step.resolveNames_linked within atStep
    obtain ⟨sameBody, bodyLinked⟩ := body.resolveNames_linked within atBody
    refine ⟨by simp only [Stmt.blank, sameInit, sameCondition, sameStep, sameBody], ?_,
      fun _ => mirrors.unchanged distinct rfl⟩
    rw [Stmt.sites, Stmt.sites, ForInit.shown_of_blank sameInit]
    exact (((Linked.scope new initLinked).append conditionLinked).append stepLinked).append
      bodyLinked
  | .breakLoop _, _, _, _, _, _, mirrors, distinct, run
  | .continueLoop _, _, _, _, _, _, mirrors, distinct, run
  | .returnValue _ none, _, _, _, _, _, mirrors, distinct, run => by
    cases run
    exact ⟨rfl, .nil, fun _ => mirrors.unchanged distinct rfl⟩
  | .returnValue span (some value), _, _, _, _, _, mirrors, distinct, run => by
    obtain ⟨value', atValue, run⟩ := bind_eq_ok.mp run
    cases run
    obtain ⟨same, linked⟩ := value.resolveNames_linked mirrors atValue
    exact ⟨by simp only [Stmt.blank, Option.map, same], linked,
      fun _ => mirrors.unchanged distinct rfl⟩

/-- Inside a run of functions the scopes hold the whole run already. -/
theorem Stmt.resolveAll_linked :
    ∀ (statements : List Stmt) {scopes : Scopes} {inRun : Bool} {earlier : Shown}
      {around : List Shown} {r : List Stmt},
      Stmt.resolveAll scopes inRun statements = .ok r →
      scopes.Mirrors ((if inRun then visible earlier statements else earlier) :: around) →
      (Shown.names (if inRun then visible earlier statements else earlier)).Nodup →
      r.map Stmt.blank = statements.map Stmt.blank ∧
        Linked (Stmt.allSites around earlier statements) (Stmt.allSites around earlier r) ∧
        (Shown.names (earlier ++ statements.flatMap Stmt.shown)).Nodup
  | [], _, inRun, earlier, _, _, run, _, distinct => by
    cases run
    cases inRun <;> exact ⟨rfl, .nil, by simpa [visible, leadingFunctions] using distinct⟩
  | s :: rest, scopes, inRun, earlier, around, _, run, mirrors, distinct => by
    cases kind : s.isFunction with
    | true =>
      obtain ⟨span, decl, rfl⟩ : ∃ span decl, s = .function span decl := by
        cases s <;> first | exact ⟨_, _, rfl⟩ | cases kind
      obtain ⟨inner, decl', rest', stay, declares, atDecl, atRest, rfl⟩ :=
        Stmt.resolveAll_function run
      have entered : (Shown.names (visible earlier (.function span decl :: rest))).Nodup ∧
          inner.Mirrors (visible earlier (.function span decl :: rest) :: around) := by
        cases inRun with
        | true => exact stay rfl ▸ ⟨distinct, mirrors⟩
        | false => exact declareFunctions_linked mirrors distinct (declares rfl)
      have advance : visible (earlier ++ [decl.shown]) rest =
          visible earlier (.function span decl :: rest) :=
        (List.append_cons ..).symm
      obtain ⟨sameDecl, declLinked⟩ := decl.resolveNames_linked entered.2 atDecl
      rw [← advance] at entered
      obtain ⟨sameRest, restLinked, new⟩ :=
        Stmt.resolveAll_linked rest atRest entered.2 entered.1
      have sameHead : (Stmt.function span decl').blank = (Stmt.function span decl).blank := by
        simp only [Stmt.blank, sameDecl]
      obtain ⟨same, linked⟩ := Stmt.linked_cons sameHead sameRest declLinked restLinked
      exact ⟨same, linked, by simpa [Stmt.shown] using new⟩
    | false =>
      obtain ⟨s', after, rest', atHead, atRest, rfl⟩ := Stmt.resolveAll_plain kind run
      have alone : visible earlier (s :: rest) = earlier := by
        rw [visible, leadingFunctions_eq_nil rest kind, List.map_nil, List.append_nil]
      rw [alone, ite_self] at mirrors distinct
      obtain ⟨sameHead, headLinked, entered⟩ := s.resolveNames_linked mirrors distinct atHead
      obtain ⟨distinct, mirrors⟩ := entered kind
      obtain ⟨sameRest, restLinked, new⟩ := Stmt.resolveAll_linked rest atRest mirrors distinct
      rw [← alone] at headLinked
      obtain ⟨same, linked⟩ := Stmt.linked_cons sameHead sameRest headLinked restLinked
      exact ⟨same, linked, by rwa [List.append_assoc] at new⟩

theorem Block.resolveNames_linked :
    ∀ (body : Block) {scopes : Scopes} {around : List Shown} {r : Block},
      scopes.Mirrors around → body.resolveNames scopes = .ok r →
      r.blank = body.blank ∧ Linked (body.sites around) (r.sites around)
  | ⟨span, statements⟩, _, _, _, mirrors, run => by
    obtain ⟨statements', atStatements, run⟩ := bind_eq_ok.mp run
    cases run
    obtain ⟨same, linked, new⟩ :=
      Stmt.resolveAll_linked statements atStatements mirrors.push List.nodup_nil
    refine ⟨?_, .scope new linked⟩
    simp only [Block.blank, Stmt.allBlank_eq_map, same]

theorem FunctionDecl.resolveNames_linked :
    ∀ (decl : FunctionDecl) {scopes : Scopes} {around : List Shown} {r : FunctionDecl},
      scopes.Mirrors around → decl.resolveNames scopes = .ok r →
      r.blank = decl.blank ∧ Linked (decl.sites around) (r.sites around)
  | ⟨id, name, nameSpan, params, resultName, body, span, symbol⟩, scopes, around, _, mirrors,
      run => by
    obtain ⟨⟨header, function⟩, atHeader, run⟩ := bind_eq_ok.mp run
    obtain ⟨inner, declares, run⟩ := bind_eq_ok.mp run
    obtain ⟨body', atBody, run⟩ := bind_eq_ok.mp run
    cases run
    obtain ⟨announceable, rfl, rfl⟩ := (FunctionDecl.resolveHeader_eq_ok mirrors).mp atHeader
    obtain ⟨distinct, within⟩ := declareVariables_linked mirrors.push List.nodup_nil declares
    obtain ⟨same, linked⟩ := body.resolveNames_linked within atBody
    rw [List.nil_append, Shown.names_params] at distinct
    refine ⟨?_, (FunctionDecl.headerSites_linked announceable body').append
      (.scope distinct ?_)⟩
    · simp only [FunctionDecl.blank, same, List.map_map]
      rfl
    · rw [List.map_map]
      exact linked

end

/-- Where a list begins, its first functions are declared; then it is resolved as a run goes on. -/
theorem Stmt.resolveAll_enter (scopes : Scopes) (statements : List Stmt) :
    Stmt.resolveAll scopes false statements =
      declareFunctions scopes (leadingFunctions statements) >>=
        fun inner => Stmt.resolveAll inner true statements := by
  cases statements with
  | nil => rfl
  | cons s rest =>
    cases s with
    | function span decl =>
      rw [Stmt.resolveAll, if_neg (by simp)]
      simp only [Stmt.resolveAll, if_true, pure_bind]
    | expr | letVar | block | ifElse | whileLoop | forLoop | breakLoop | continueLoop
    | returnValue => rfl

/-- Inside a run a function is resolved in the scopes of the run. -/
theorem Stmt.resolveAll_function_cons (scopes : Scopes) (span : Span) (f : FunctionDecl)
    (rest : List Stmt) :
    Stmt.resolveAll scopes true (.function span f :: rest) = f.resolveNames scopes >>= fun f =>
      Stmt.resolveAll scopes true rest >>= fun rest => .ok (.function span f :: rest) := by
  rw [Stmt.resolveAll, if_pos rfl, pure_bind]
  rfl

/-- After the first functions of a list have been declared, its statements are resolved in order. -/
theorem Stmt.resolveAll_cons (scopes : Scopes) (s : Stmt) (rest : List Stmt) :
    Stmt.resolveAll scopes true (s :: rest) = s.resolveNames scopes >>= fun (s', after) =>
      Stmt.resolveAll after s.isFunction rest >>= fun rest => .ok (s' :: rest) := by
  cases s with
  | function span f =>
    rw [Stmt.resolveAll_function_cons, Stmt.resolveNames, bind_assoc]
    rfl
  | expr | letVar | block | ifElse | whileLoop | forLoop | breakLoop | continueLoop
  | returnValue =>
    rw [Stmt.resolveAll.eq_3 _ _ _ _ (by rintro _ _ ⟨⟩)]
    rfl

/-- A function is resolved in the scopes that hold its run, and so are those after it. -/
theorem Stmt.resolveAll_next_function {span : Span} {decl decl' : FunctionDecl}
    {rest rest' : List Stmt} (atDecl : decl.resolveNames scopes = .ok decl')
    (atRest : Stmt.resolveAll scopes true rest = .ok rest') :
    Stmt.resolveAll scopes true (.function span decl :: rest) =
      .ok (.function span decl' :: rest') := by
  rw [Stmt.resolveAll_function_cons]
  exact bind_eq_ok.mpr ⟨decl', atDecl, bind_eq_ok.mpr ⟨rest', atRest, rfl⟩⟩

theorem Stmt.resolveAll_next_plain {s s' : Stmt} {after : Scopes} {rest rest' : List Stmt}
    (inRun : Bool) (plain : s.isFunction = false) (atHead : s.resolveNames scopes = .ok (s', after))
    (atRest : Stmt.resolveAll after false rest = .ok rest') :
    Stmt.resolveAll scopes inRun (s :: rest) = .ok (s' :: rest') := by
  have other : ∀ span decl, s = .function span decl → False := by
    rintro span decl rfl
    cases plain
  rw [Stmt.resolveAll.eq_3 _ _ _ _ other]
  exact bind_eq_ok.mpr ⟨(s', after), atHead, bind_eq_ok.mpr ⟨rest', atRest, rfl⟩⟩

/-- The functions that a blank list begins with are announceable if the list is sound. -/
theorem leadingFunctions_announceable {earlier : Shown} {statements : List Stmt}
    (blank : statements.map Stmt.blank = statements)
    (sound : ∀ site ∈ Stmt.allSites around earlier statements, site.Sound) :
    ∀ decl ∈ leadingFunctions statements, decl.Announceable := by
  intro decl member
  have each : (leadingFunctions statements).map FunctionDecl.blank =
      (leadingFunctions statements).map id := by
    rw [← leadingFunctions_blank, blank, List.map_id]
  exact decl.announceable_of_sound (List.map_inj_left.mp each decl member)
    fun site inHeader => sound site (leadingFunctions_headerSites member inHeader)

mutual

/-- A blank statement that is sound at every place is resolved, if what it declares is new. -/
theorem Stmt.resolveNames_succeeds :
    ∀ (s : Stmt) {scopes : Scopes} {shown : Shown} {around : List Shown},
      s.blank = s → (∀ site ∈ s.sites (shown :: around), site.Sound) →
      scopes.Mirrors (shown :: around) →
      (s.isFunction = false → (Shown.names (shown ++ s.shown)).Nodup) →
      ∃ r after, s.resolveNames scopes = .ok (r, after)
  | .expr span e, _, _, _, blank, sound, mirrors, _ => by
    simp only [Stmt.blank, Stmt.expr.injEq] at blank
    obtain ⟨e', atExpr⟩ := e.resolveNames_succeeds mirrors blank.2 sound
    exact ⟨_, _, bind_eq_ok.mpr ⟨_, atExpr, rfl⟩⟩
  | .letVar span decl, _, shown, _, blank, sound, mirrors, distinct => by
    simp only [Stmt.blank, Stmt.letVar.injEq] at blank
    have concat := distinct rfl
    have old : shown.names.Nodup := concat.sublist ((List.sublist_append_left ..).map Prod.fst)
    obtain ⟨decl', after, atDecl⟩ := VarDecl.resolveNames_succeeds mirrors blank.2 sound
      ((Shown.nodup_concat old).mp concat)
    exact ⟨_, _, bind_eq_ok.mpr ⟨_, atDecl, rfl⟩⟩
  | .function span decl, _, _, _, blank, sound, mirrors, _ => by
    simp only [Stmt.blank, Stmt.function.injEq] at blank
    obtain ⟨decl', atDecl⟩ := decl.resolveNames_succeeds blank.2 sound mirrors
    exact ⟨_, _, bind_eq_ok.mpr ⟨_, atDecl, rfl⟩⟩
  | .block span body, _, _, _, blank, sound, mirrors, _ => by
    simp only [Stmt.blank, Stmt.block.injEq] at blank
    obtain ⟨body', atBody⟩ := body.resolveNames_succeeds blank.2 sound mirrors
    exact ⟨_, _, bind_eq_ok.mpr ⟨_, atBody, rfl⟩⟩
  | .ifElse span condition thenBranch none, _, _, _, blank, sound, mirrors, _ => by
    simp only [Stmt.blank, Stmt.ifElse.injEq] at blank
    obtain ⟨conditionSound, thenSound⟩ := List.forall_mem_append.mp sound
    obtain ⟨condition', atCondition⟩ :=
      condition.resolveNames_succeeds mirrors blank.2.1 conditionSound
    obtain ⟨thenBranch', atThen⟩ :=
      thenBranch.resolveNames_succeeds blank.2.2.1 thenSound mirrors
    exact ⟨_, _, bind_eq_ok.mpr ⟨_, atCondition, bind_eq_ok.mpr ⟨_, atThen, rfl⟩⟩⟩
  | .ifElse span condition thenBranch (some elseBranch), _, _, _, blank, sound, mirrors, _ => by
    simp only [Stmt.blank, Stmt.ifElse.injEq, Option.some.injEq] at blank
    obtain ⟨sound, elseSound⟩ := List.forall_mem_append.mp sound
    obtain ⟨conditionSound, thenSound⟩ := List.forall_mem_append.mp sound
    obtain ⟨condition', atCondition⟩ :=
      condition.resolveNames_succeeds mirrors blank.2.1 conditionSound
    obtain ⟨thenBranch', atThen⟩ :=
      thenBranch.resolveNames_succeeds blank.2.2.1 thenSound mirrors
    obtain ⟨elseBranch', atElse⟩ :=
      elseBranch.resolveNames_succeeds blank.2.2.2 elseSound mirrors
    exact ⟨_, _, bind_eq_ok.mpr ⟨_, atCondition, bind_eq_ok.mpr ⟨_, atThen,
      bind_eq_ok.mpr ⟨_, atElse, rfl⟩⟩⟩⟩
  | .whileLoop span condition body, _, _, _, blank, sound, mirrors, _ => by
    simp only [Stmt.blank, Stmt.whileLoop.injEq] at blank
    obtain ⟨conditionSound, bodySound⟩ := List.forall_mem_append.mp sound
    obtain ⟨condition', atCondition⟩ :=
      condition.resolveNames_succeeds mirrors blank.2.1 conditionSound
    obtain ⟨body', atBody⟩ := body.resolveNames_succeeds blank.2.2 bodySound mirrors
    exact ⟨_, _, bind_eq_ok.mpr ⟨_, atCondition, bind_eq_ok.mpr ⟨_, atBody, rfl⟩⟩⟩
  | .forLoop span init condition step body, _, _, _, blank, sound, mirrors, _ => by
    simp only [Stmt.blank, Stmt.forLoop.injEq] at blank
    obtain ⟨sound, bodySound⟩ := List.forall_mem_append.mp sound
    obtain ⟨sound, stepSound⟩ := List.forall_mem_append.mp sound
    obtain ⟨sound, conditionSound⟩ := List.forall_mem_append.mp sound
    obtain ⟨init', inner, atInit⟩ := ForInit.resolveNames_succeeds mirrors.push blank.2.1
      (List.forall_mem_cons.mp sound).2
    obtain ⟨-, -, -, within⟩ := ForInit.resolveNames_linked mirrors.push atInit
    obtain ⟨condition', atCondition⟩ :=
      condition.resolveNames_succeeds within blank.2.2.1 conditionSound
    obtain ⟨step', atStep⟩ := step.resolveNames_succeeds within blank.2.2.2.1 stepSound
    obtain ⟨body', atBody⟩ := body.resolveNames_succeeds blank.2.2.2.2 bodySound within
    exact ⟨_, _, bind_eq_ok.mpr ⟨_, atInit, bind_eq_ok.mpr ⟨_, atCondition,
      bind_eq_ok.mpr ⟨_, atStep, bind_eq_ok.mpr ⟨_, atBody, rfl⟩⟩⟩⟩⟩
  | .breakLoop _, _, _, _, _, _, _, _ | .continueLoop _, _, _, _, _, _, _, _
  | .returnValue _ none, _, _, _, _, _, _, _ => ⟨_, _, rfl⟩
  | .returnValue span (some value), _, _, _, blank, sound, mirrors, _ => by
    simp only [Stmt.blank, Option.map, Stmt.returnValue.injEq, Option.some.injEq] at blank
    obtain ⟨value', atValue⟩ := value.resolveNames_succeeds mirrors blank.2 sound
    exact ⟨_, _, bind_eq_ok.mpr ⟨_, atValue, rfl⟩⟩

theorem Stmt.resolveAll_succeeds :
    ∀ (statements : List Stmt) {scopes : Scopes} (inRun : Bool) {earlier : Shown}
      {around : List Shown},
      statements.map Stmt.blank = statements →
      (∀ site ∈ Stmt.allSites around earlier statements, site.Sound) →
      scopes.Mirrors ((if inRun then visible earlier statements else earlier) :: around) →
      (Shown.names (earlier ++ statements.flatMap Stmt.shown)).Nodup →
      ∃ r, Stmt.resolveAll scopes inRun statements = .ok r
  | [], _, _, _, _, _, _, _, _ => ⟨_, rfl⟩
  | s :: rest, scopes, inRun, earlier, around, blank, sound, mirrors, distinct => by
    -- Once the run is declared, it makes no difference whether the list begins here.
    obtain ⟨inner, within, entered⟩ : ∃ inner : Scopes,
        inner.Mirrors (visible earlier (s :: rest) :: around) ∧
        ∀ r, Stmt.resolveAll inner true (s :: rest) = .ok r →
          Stmt.resolveAll scopes inRun (s :: rest) = .ok r := by
      cases inRun with
      | true => exact ⟨scopes, mirrors, fun _ run => run⟩
      | false =>
        have old := distinct.sublist ((List.sublist_append_left ..).map Prod.fst)
        have run := distinct.sublist
          (((leadingFunctions_shown (s :: rest)).sublist.append_left earlier).map Prod.fst)
        obtain ⟨inner, declares⟩ :=
          declareFunctions_succeeds mirrors (leadingFunctions_announceable blank sound) run
        refine ⟨inner, (declareFunctions_linked mirrors old declares).2, fun r atList => ?_⟩
        rw [Stmt.resolveAll_enter]
        exact bind_eq_ok.mpr ⟨inner, declares, atList⟩
    obtain ⟨headBlank, restBlank⟩ := List.cons.inj blank
    obtain ⟨headSound, restSound⟩ := List.forall_mem_append.mp sound
    rw [List.flatMap_cons, ← List.append_assoc] at distinct
    have upTo := distinct.sublist ((List.sublist_append_left ..).map Prod.fst)
    cases kind : s.isFunction with
    | true =>
      obtain ⟨span, decl, rfl⟩ : ∃ span decl, s = .function span decl := by
        cases s <;> first | exact ⟨_, _, rfl⟩ | cases kind
      simp only [Stmt.blank, Stmt.function.injEq, true_and] at headBlank
      have advance : visible (earlier ++ [decl.shown]) rest =
          visible earlier (.function span decl :: rest) :=
        (List.append_cons ..).symm
      obtain ⟨decl', atDecl⟩ := decl.resolveNames_succeeds headBlank headSound within
      rw [← advance] at within
      obtain ⟨rest', atRest⟩ :=
        Stmt.resolveAll_succeeds rest true restBlank restSound within distinct
      exact ⟨_, entered _ (Stmt.resolveAll_next_function atDecl atRest)⟩
    | false =>
      have alone : visible earlier (s :: rest) = earlier := by
        rw [visible, leadingFunctions_eq_nil rest kind, List.map_nil, List.append_nil]
      rw [alone] at within headSound
      obtain ⟨s', after, atHead⟩ := s.resolveNames_succeeds headBlank headSound within fun _ => upTo
      have old := upTo.sublist ((List.sublist_append_left ..).map Prod.fst)
      obtain ⟨-, -, declared⟩ := s.resolveNames_linked within old atHead
      obtain ⟨rest', atRest⟩ :=
        Stmt.resolveAll_succeeds rest false restBlank restSound (declared kind).2 distinct
      exact ⟨_, entered _ (Stmt.resolveAll_next_plain true kind atHead atRest)⟩

theorem Block.resolveNames_succeeds :
    ∀ (body : Block) {scopes : Scopes} {around : List Shown}, body.blank = body →
      (∀ site ∈ body.sites around, site.Sound) → scopes.Mirrors around →
      ∃ r, body.resolveNames scopes = .ok r
  | ⟨span, statements⟩, _, _, blank, sound, mirrors => by
    simp only [Block.blank, Stmt.allBlank_eq_map, Block.mk.injEq, true_and] at blank
    obtain ⟨distinct, sound⟩ := List.forall_mem_cons.mp sound
    obtain ⟨statements', atStatements⟩ :=
      Stmt.resolveAll_succeeds statements false blank sound mirrors.push distinct
    exact ⟨_, bind_eq_ok.mpr ⟨_, atStatements, rfl⟩⟩

theorem FunctionDecl.resolveNames_succeeds :
    ∀ (decl : FunctionDecl) {scopes : Scopes} {around : List Shown}, decl.blank = decl →
      (∀ site ∈ decl.sites around, site.Sound) → scopes.Mirrors around →
      ∃ r, decl.resolveNames scopes = .ok r
  | ⟨id, name, nameSpan, params, resultName, body, span, symbol⟩, scopes, around, blank, sound,
      mirrors => by
    obtain ⟨headerSound, sound⟩ := List.forall_mem_append.mp sound
    obtain ⟨distinct, bodySound⟩ := List.forall_mem_cons.mp sound
    have atHeader := (FunctionDecl.resolveHeader_eq_ok mirrors).mpr
      ⟨FunctionDecl.announceable_of_sound blank headerSound, rfl, rfl⟩
    rw [Site.Sound, ← Shown.names_params, ← List.nil_append (params.map Param.shown)] at distinct
    obtain ⟨inner, declares⟩ := declareVariables_succeeds mirrors.push distinct
    obtain ⟨-, within⟩ := declareVariables_linked mirrors.push List.nodup_nil declares
    simp only [FunctionDecl.blank, FunctionDecl.mk.injEq, true_and] at blank
    obtain ⟨body', atBody⟩ := body.resolveNames_succeeds blank.2.1 bodySound within
    exact ⟨_, bind_eq_ok.mpr ⟨_, atHeader, bind_eq_ok.mpr ⟨_, declares,
      bind_eq_ok.mpr ⟨_, atBody, rfl⟩⟩⟩⟩

end

end Lu
