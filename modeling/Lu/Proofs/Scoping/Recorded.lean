import Lu.Proofs.Check.Once
import Lu.Proofs.Scoping.Resolution

namespace Lu

/-!
The resolution of names comes to each slot once: with its record of filled slots it does what it
does without one. The headers of a run of functions are filled before the bodies, so they are told
apart from what is filled when the walk comes to the functions again.
-/

open Filling

mutual

theorem Expr.fillNames_plain {scopes : Scopes} :
    ∀ e : Expr, Fills (ahead 0) (e.fillNames scopes) (e.resolveNames scopes)
  | .literal .. => .pure _
  | .variable .. => .lift_bind fun _ _ => .then_pure (.fill mem_ahead_self) _
  | .assign _ target value =>
    .part target.fillNames_plain fun _ _ => .part value.fillNames_plain fun _ _ => .pure _
  | .binary _ _ left right =>
    .part left.fillNames_plain fun _ _ => .part right.fillNames_plain fun _ _ => .pure _
  | .unary _ _ operand => .part operand.fillNames_plain fun _ _ => .pure _
  | .call _ _ _ args _ =>
    .part (Expr.fillAll_plain args) fun _ _ =>
      .lift_bind fun _ _ => .then_pure (.fill mem_ahead_self) _

theorem Expr.fillAll_plain {scopes : Scopes} : ∀ args : List Expr,
    Fills (ahead 0) (fillNames.fillAll scopes args) (resolveNames.resolveAll scopes args)
  | [] => .pure _
  | e :: rest =>
    .part e.fillNames_plain fun _ _ => .part (Expr.fillAll_plain rest) fun _ _ => .pure _

end

theorem VarDecl.fillTypeName_plain {scopes : Scopes} (decl : VarDecl) :
    Fills {([], "declared type")} (decl.fillTypeName scopes) (decl.resolveTypeName scopes) := by
  unfold fillTypeName resolveTypeName
  cases decl.typeName with
  | some typeName => exact .lift_bind fun _ _ => .fill (Set.mem_singleton _)
  | none => exact .pure _

theorem VarDecl.fillNames_plain {scopes : Scopes} (kind : VariableKind) (decl : VarDecl) :
    Fills (ahead 0) (decl.fillNames scopes kind) (decl.resolveNames scopes kind) := by
  refine .part decl.init.fillNames_plain fun init _ => ?_
  refine .bind decl.fillTypeName_plain (by simp) fun declared _ => ?_
  refine .bind (.fill (Set.mem_singleton _)) (by simp) fun symbol _ => ?_
  exact .then_pure (.lift _) _

theorem ForInit.fillNames_plain {scopes : Scopes} : ∀ init : ForInit,
    Fills (ahead 0) (init.fillNames scopes) (init.resolveNames scopes)
  | .letVar decl => .then_pure (decl.fillNames_plain .iterator) _
  | .assign e => .then_pure e.fillNames_plain _

theorem fillParams_plain {scopes : Scopes} : ∀ params : List Param,
    Fills (ahead 0) (fillParams scopes params) (resolveParams scopes params)
  | [] => .pure _
  | _ :: rest => .lift_bind fun _ _ => .part (.fill mem_ahead_self) fun _ _ =>
      .part (fillParams_plain rest) fun _ _ => .pure _

namespace FunctionDecl

/-- Resolves all of a function but its body, and makes the function visible. -/
def declareHeader (scopes : Scopes) (decl : FunctionDecl) : Check (FunctionDecl × Scopes) := do
  let (header, function) ← decl.resolveHeader scopes
  return (header, ← scopes.declareFunction function)

/-- The header of the function, as it is in these scopes. -/
def HasHeader (scopes : Scopes) (header decl : FunctionDecl) : Prop :=
  ∃ function, decl.resolveHeader scopes = .ok (header, function)

/-- The slots of a function outside its body. -/
def headerSlots : Set SlotKey := (inPart 1 (ahead 0))ᶜ

theorem fillHeader_plain {scopes : Scopes} (decl : FunctionDecl) :
    Fills headerSlots (decl.fillHeader scopes) (decl.declareHeader scopes) := by
  have outside : inPart 0 (ahead 0) ⊆ headerSlots := inPart_apart (by simp)
  unfold declareHeader resolveHeader
  simp only [bind_assoc, pure_bind]
  refine .bind ((fillParams_plain decl.params).inside 0) outside fun params _ => ?_
  refine .lift_bind fun result _ => .bind (.fill (Set.mem_singleton _)) ?_ fun symbol _ => ?_
  · rintro _ rfl
    exact ⟨not_mem_inPart_self, not_mem_inPart_self⟩
  · exact .then_pure (.lift _) _

theorem fillHeader_stores {scopes : Scopes} (decl : FunctionDecl) :
    Stores "function symbol" (decl.fillHeader scopes) := by
  refine .behind (.inside 0 _) fun params => .behind (.lift _) fun result => ?_
  exact .before (.fill decl.symbol _) fun symbol => .then_pure (.lift _) _

/-- A step that comes to the header of a function a second time does not get over it. -/
theorem fillHeader_not_twice {scopes later : Scopes} {decl : FunctionDecl}
    {result again : FunctionDecl × Scopes} {filled after last : Filled}
    (run : decl.fillHeader scopes filled = .ok (result, after)) :
    decl.fillHeader later after ≠ .ok (again, last) :=
  decl.fillHeader_stores.not_twice decl.fillHeader_stores run

end FunctionDecl

/-- Declares functions one after the other; gives them with their headers done. -/
def declareHeaders (scopes : Scopes) : List FunctionDecl → Check (List FunctionDecl × Scopes)
  | [] => return ([], scopes)
  | decl :: rest => do
    let (header, scopes) ← decl.declareHeader scopes
    let (headers, scopes) ← declareHeaders scopes rest
    return (header :: headers, scopes)

theorem declareHeaders_eq (scopes : Scopes) (decls : List FunctionDecl) :
    Prod.snd <$> declareHeaders scopes decls = declareFunctions scopes decls := by
  induction decls generalizing scopes with
  | nil => rfl
  | cons decl rest ih =>
    simp only [declareHeaders, declareFunctions, FunctionDecl.declareHeader, bind_assoc, pure_bind,
      map_bind, map_pure]
    refine bind_congr fun _ => bind_congr fun bound => ?_
    rw [← ih bound, map_eq_pure_bind]

/-- All functions of a run have their headers in the scopes after it, where their bodies are. -/
theorem declareHeaders_hasHeader {scopes bound : Scopes} {headers decls : List FunctionDecl}
    (run : declareHeaders scopes decls = .ok (headers, bound)) :
    List.Forall₂ (FunctionDecl.HasHeader bound) headers decls := by
  induction decls generalizing scopes headers with
  | nil =>
    cases run
    exact .nil
  | cons decl rest ih =>
    have declared : declareFunctions scopes (decl :: rest) = .ok bound := by
      rw [← declareHeaders_eq, run]
      rfl
    obtain ⟨⟨header, between⟩, atHead, run⟩ := bind_eq_ok.mp run
    obtain ⟨⟨headers, bound⟩, atRest, run⟩ := bind_eq_ok.mp run
    cases run
    obtain ⟨⟨header, function⟩, atHeader, declares⟩ := bind_eq_ok.mp atHead
    obtain ⟨_, -, same⟩ := bind_eq_ok.mp declares
    cases same
    refine .cons ⟨function, ?_⟩ (ih atRest)
    rw [← atHeader]
    exact decl.resolveHeader_congr (declareFunctions_types declared)

/-- The slots of the headers of the functions that a list begins with, as many as given. -/
def runSlots : Nat → Set SlotKey
  | 0 => ∅
  | count + 1 => inPart 0 FunctionDecl.headerSlots ∪ inPart 1 (runSlots count)

theorem declareRun_plain : ∀ (statements : List Stmt) {scopes : Scopes}
    {queue : Deferred FunctionDecl},
    Fills (runSlots (leadingFunctions statements).length) (declareRun scopes queue statements) (do
      let (headers, bound) ← declareHeaders scopes (leadingFunctions statements)
      return (headers.foldl Deferred.enqueue queue, bound))
  | .function _ decl :: rest, scopes, queue => by
    simp only [leadingFunctions, declareHeaders, bind_assoc, pure_bind, List.foldl_cons]
    refine .bind (decl.fillHeader_plain.inside 0) Set.subset_union_left fun header _ => ?_
    exact ((declareRun_plain rest).inside 1).mono
      fun _ member => ⟨Or.inr member, inPart_apart (by simp) member⟩
  | [], _, _ => .pure _
  | .expr .. :: _, _, _ | .letVar .. :: _, _, _ | .block .. :: _, _, _ | .ifElse .. :: _, _, _
  | .whileLoop .. :: _, _, _ | .forLoop .. :: _, _, _ | .breakLoop _ :: _, _, _
  | .continueLoop _ :: _, _, _ | .returnValue .. :: _, _, _ => .pure _

theorem Deferred.toList_foldl_enqueue {α : Type} (items : List α) (queue : Deferred α) :
    (items.foldl Deferred.enqueue queue).toList = queue.toList ++ items := by
  induction items generalizing queue with
  | nil => simp
  | cons item rest ih => simp [ih]

/-- Where nothing waits, the run is declared, and its functions wait in order. -/
theorem nextRun_plain (scopes : Scopes) (statements : List Stmt) :
    Fills (runSlots (leadingFunctions statements).length) (nextRun scopes [] statements)
      (declareHeaders scopes (leadingFunctions statements)) := by
  have atRun := (@declareRun_plain statements scopes {}).then_pure
    fun run => (run.1.take.1, run.2)
  have inOrder (headers : List FunctionDecl) :
      (headers.foldl Deferred.enqueue {}).take.1 = headers :=
    Deferred.toList_foldl_enqueue headers {}
  simp only [bind_assoc, pure_bind, inOrder, Prod.eta, bind_pure] at atRun
  exact atRun

theorem declareParams_eq {params : List Param} (resolved : ∀ param ∈ params, param.Resolved)
    (scopes : Scopes) :
    declareParams scopes params = declareVariables scopes (params.map Param.binding) := by
  induction params generalizing scopes with
  | nil => rfl
  | cons param rest ih =>
    obtain ⟨first, resolved⟩ := List.forall_mem_cons.mp resolved
    have carried : param.symbol.get = .ok param.binding := Attribute.get_eq_ok.mpr first.carried
    simp only [declareParams, carried, Check.lift, List.map_cons, declareVariables]
    exact bind_congr fun bound => ih resolved bound

/-- What waits before a list: in a run the functions that the list begins with, as they were
declared, and else nothing. -/
def Waits (scopes : Scopes) (inRun : Bool) (waiting : List FunctionDecl) (statements : List Stmt) :
    Prop :=
  if inRun then List.Forall₂ (FunctionDecl.HasHeader scopes) waiting (leadingFunctions statements)
  else waiting = []

theorem Waits.eq_nil {scopes : Scopes} {inRun : Bool} {waiting : List FunctionDecl} {s : Stmt}
    {rest : List Stmt} (waits : Waits scopes inRun waiting (s :: rest))
    (plain : s.isFunction = false) : waiting = [] := by
  cases inRun with
  | false => exact waits
  | true =>
    have headers : List.Forall₂ (FunctionDecl.HasHeader scopes) waiting
        (leadingFunctions (s :: rest)) := waits
    rw [leadingFunctions_eq_nil rest plain] at headers
    cases headers
    rfl

/-- The bodies of a run are filled apart from its headers. -/
theorem bodySlots_subset {count : Nat} :
    inPart 0 (inPart 1 (ahead 0)) ⊆ (runSlots (count + 1))ᶜ := by
  rw [runSlots, Set.compl_union]
  exact Set.subset_inter (inPart_compl (compl_compl _).ge) (inPart_apart (by simp))

theorem restSlots_subset {keys : Set SlotKey} {count : Nat} :
    inPart 1 (runSlots count)ᶜ ⊆ (runSlots (count + 1))ᶜ \ inPart 0 keys := by
  rw [runSlots, Set.compl_union]
  exact Set.subset_inter
    (Set.subset_inter (inPart_apart (by simp)) (inPart_compl (Set.Subset.refl _)))
    (inPart_apart (by simp))

mutual

theorem Stmt.fillNames_plain : ∀ (s : Stmt) {scopes : Scopes}, s.isFunction = false →
    Fills (ahead 0) (s.fillNames scopes) (s.resolveNames scopes)
  | .expr _ e, _, _ => .then_pure e.fillNames_plain _
  | .letVar _ decl, _, _ => .then_pure (decl.fillNames_plain .localVar) _
  | .block _ body, _, _ => .then_pure body.fillNames_plain _
  | .ifElse _ condition thenBranch none, _, _ =>
    .part condition.fillNames_plain fun _ _ => .part thenBranch.fillNames_plain fun _ _ => .pure _
  | .ifElse _ condition thenBranch (some elseBranch), _, _ =>
    .part condition.fillNames_plain fun _ _ => .part thenBranch.fillNames_plain fun _ _ =>
      .part elseBranch.fillNames_plain fun _ _ => .pure _
  | .whileLoop _ condition body, _, _ =>
    .part condition.fillNames_plain fun _ _ => .part body.fillNames_plain fun _ _ => .pure _
  | .forLoop _ init condition step body, _, _ =>
    .part init.fillNames_plain fun _ _ => .part condition.fillNames_plain fun _ _ =>
      .part step.fillNames_plain fun _ _ => .part body.fillNames_plain fun _ _ => .pure _
  | .breakLoop _, _, _ | .continueLoop _, _, _ | .returnValue _ none, _, _ => .pure _
  | .returnValue _ (some value), _, _ => .then_pure value.fillNames_plain _

theorem Stmt.fillAll_plain : ∀ (statements : List Stmt) {scopes : Scopes} {inRun : Bool}
    {waiting : List FunctionDecl}, Waits scopes inRun waiting statements →
    Fills (runSlots waiting.length)ᶜ (Stmt.fillAll scopes waiting statements)
      (Stmt.resolveAll scopes inRun statements)
  | [], _, _, _, _ => .pure _
  | s :: rest, scopes, inRun, waiting, waits => by
    cases kind : s.isFunction with
    | true =>
      obtain ⟨span, decl, rfl⟩ : ∃ span decl, s = .function span decl := by
        cases s <;> first | exact ⟨_, _, rfl⟩ | cases kind
      have declared {bound : Scopes} {headers : List FunctionDecl}
          (each : List.Forall₂ (FunctionDecl.HasHeader bound) headers
            (leadingFunctions (.function span decl :: rest))) :
          Fills (runSlots headers.length)ᶜ (do
            let decl ← inside 0 ((headers.headD decl).fillBody bound decl)
            let rest ← inside 1 (Stmt.fillAll bound headers.tail rest)
            return .function span decl :: rest) (do
            let decl ← decl.resolveNames bound
            let rest ← Stmt.resolveAll bound true rest
            return .function span decl :: rest) := by
        obtain ⟨header, later, first, others, rfl⟩ := List.forall₂_cons_right_iff.mp each
        refine .bind ((decl.fillBody_plain first).inside 0) bodySlots_subset fun _ _ => ?_
        have atRest := Stmt.fillAll_plain rest (show Waits bound true later rest from others)
        exact ((atRest.inside 1).then_pure _).mono restSlots_subset
      rw [Stmt.fillAll, Stmt.resolveAll]
      cases inRun with
      | true =>
        obtain ⟨header, later, -, -, rfl⟩ := List.forall₂_cons_right_iff.mp waits
        exact declared waits
      | false =>
        cases show waiting = [] from waits
        rw [if_neg (by simp), ← declareHeaders_eq, bind_map_left]
        refine .bind (nextRun_plain scopes _) (by simp [runSlots]) fun ⟨headers, bound⟩ run => ?_
        have each := declareHeaders_hasHeader run
        refine (declared each).mono ?_
        rw [each.length_eq]
        exact Set.subset_inter (by simp [runSlots]) (Set.Subset.refl _)
    | false =>
      have other : ∀ span decl, s = .function span decl → False := by
        rintro span decl rfl
        cases kind
      cases waits.eq_nil kind
      rw [Stmt.fillAll.eq_3 _ _ _ _ other, Stmt.resolveAll.eq_3 _ _ _ _ other]
      have all : (runSlots 0)ᶜ = ahead 0 := by simp [runSlots]
      rw [List.length_nil, all]
      refine .part (s.fillNames_plain kind) fun ⟨_, after⟩ _ => ?_
      have atRest := Stmt.fillAll_plain rest (show Waits after false [] rest from rfl)
      rw [List.length_nil, all] at atRest
      exact .part atRest fun _ _ => .pure _

theorem Block.fillNames_plain : ∀ (body : Block) {scopes : Scopes},
    Fills (ahead 0) (body.fillNames scopes) (body.resolveNames scopes)
  | ⟨_, statements⟩, scopes => by
    have atStatements :=
      Stmt.fillAll_plain statements (show Waits scopes.push false [] statements from rfl)
    exact .then_pure (atStatements.mono (by simp)) _

theorem FunctionDecl.fillBody_plain : ∀ (decl : FunctionDecl) {scopes : Scopes}
    {header : FunctionDecl}, header.HasHeader scopes decl →
    Fills (inPart 1 (ahead 0)) (header.fillBody scopes decl) (decl.resolveNames scopes)
  | ⟨id, name, nameSpan, params, resultName, body, span, symbol⟩, scopes, header,
      ⟨function, atHeader⟩ => by
    obtain ⟨-, -, -, names, eachParam⟩ := FunctionDecl.resolveHeader_resolved atHeader
    rw [FunctionDecl.fillBody, FunctionDecl.resolveNames, atHeader, declareParams_eq eachParam,
      ← names]
    refine .lift_bind fun inner _ => ?_
    exact .then_pure (body.fillNames_plain.inside 1) _

end

/-- The record of filled slots makes no difference: the resolution of names comes to no slot
twice. -/
theorem Program.resolveNames_eq (natives : List NativeSignature) (program : Program) :
    program.resolveNames natives = (do
      let statements ← Stmt.resolveAll (Scopes.ofNatives natives) false program.statements
      return { program with statements }) := by
  have atStatements := Stmt.fillAll_plain program.statements
    (show Waits (Scopes.ofNatives natives) false [] program.statements from rfl)
  rw [Program.resolveNames, atStatements.start]

theorem Program.resolveNames_eq_ok {natives : List NativeSignature} {program resolved : Program} :
    program.resolveNames natives = .ok resolved ↔ ∃ statements,
      Stmt.resolveAll (Scopes.ofNatives natives) false program.statements = .ok statements ∧
        resolved = { program with statements } := by
  rw [Program.resolveNames_eq, bind_eq_ok]
  exact exists_congr fun _ => and_congr_right fun _ => pure_eq_ok.trans eq_comm

/-- The resolution of names gives a resolved program with the same functions. -/
theorem Program.resolveNames_resolved {natives : List NativeSignature} {program resolved : Program}
    (run : program.resolveNames natives = .ok resolved) :
    resolved.Resolved natives ∧ resolved.functionIds = program.functionIds := by
  obtain ⟨statements, atStatements, rfl⟩ := Program.resolveNames_eq_ok.mp run
  obtain ⟨allResolved, ids, -⟩ := Stmt.resolveAll_resolved program.statements atStatements
  exact ⟨allResolved, ids⟩

end Lu
