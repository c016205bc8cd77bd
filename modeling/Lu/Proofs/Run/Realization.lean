import Lu.Proofs.Run.Visible

namespace Lu

/-!
Scopes of the checker beside those of a run. What the checker declared in a scope stands in the
layer of the visible scope that is as far out. The layer can hold more: a `let` that came later.
-/

/-- The layer has the function that the symbol belongs to, or is about to get it. -/
def Layer.Knows (layer : Layer) (awaited : List FunctionDecl) (symbol : FunctionSymbol) : Prop :=
  ∃ decl, decl.binding = symbol ∧
    (decl ∈ awaited ∨ layer.functions.lookup symbol.id = some decl)

def Layer.Has (layer : Layer) (awaited : List FunctionDecl) (name : String) : Declaration → Prop
  | .variable symbol => layer.owners.lookup name = some symbol
  | .function (.user symbol) => layer.Knows awaited symbol
  | .function (.native _) => False

/-- The layer has all that the table declares. -/
def Layer.Matches (layer : Layer) (awaited : List FunctionDecl) (table : SymbolTable) : Prop :=
  ∀ name declaration, table.values.lookup name = some declaration →
    layer.Has awaited name declaration

namespace Layout

/-- The functions that a scope is about to get: only the innermost one is. -/
def awaitedAt (layout : Layout) (awaited : List FunctionDecl) (index : Nat) : List FunctionDecl :=
  if index = layout.top then awaited else []

/-- The declaration behind the variable of a name in a scope. -/
def owner? (layout : Layout) (index : Nat) (name : String) : Option VariableSymbol :=
  (layout.layers[index]?).bind (·.owners.lookup name)

/-- Each scope of the chain matches its table. The last table is that of the built-in functions. -/
inductive Shows (layout : Layout) (awaited : List FunctionDecl) :
    List SymbolTable → List Nat → Prop
  | builtIn {table} : (∀ name declaration, table.values.lookup name = some declaration →
      ∃ native : Native, declaration = .function (.native native.signature)) →
      Shows layout awaited [table] []
  | scope {table tables index chain layer} : layout.layers[index]? = some layer →
      layer.Matches (layout.awaitedAt awaited index) table → Shows layout awaited tables chain →
      Shows layout awaited (table :: tables) (index :: chain)

/-- No scope of the chain before the one that declares the name has a variable of the name. -/
def Clear (layout : Layout) (name : String) : List SymbolTable → List Nat → Prop
  | table :: tables, index :: chain =>
    (table.values.lookup name).isSome ∨
      layout.owner? index name = none ∧ layout.Clear name tables chain
  | _, _ => True

/-- What the checker knew in the scopes is there in the chain. In a run without captures (`strict`)
a search for one of the free names finds just what the checker found. -/
structure Realizes (strict : Prop) (layout : Layout) (awaited : List FunctionDecl)
    (scopes : Scopes) (free : List String) (chain : List Nat) : Prop where
  shows : layout.Shows awaited scopes.tables chain
  clear : strict → ∀ name ∈ free, layout.Clear name scopes.tables chain

variable {strict : Prop} {layout other : Layout} {awaited : List FunctionDecl} {scopes : Scopes}
  {free : List String} {chain : List Nat}

theorem awaitedAt_nil (layout : Layout) (index : Nat) : layout.awaitedAt [] index = [] := by
  unfold awaitedAt
  split <;> rfl

theorem awaitedAt_top (layout : Layout) (awaited : List FunctionDecl) :
    layout.awaitedAt awaited layout.top = awaited := if_pos rfl

theorem Knows.mono {layer : Layer} {more : List FunctionDecl} {symbol : FunctionSymbol}
    (knows : layer.Knows awaited symbol) (each : ∀ decl ∈ awaited, decl ∈ more) :
    layer.Knows more symbol := by
  obtain ⟨decl, same, known⟩ := knows
  exact ⟨decl, same, known.imp_left (each decl)⟩

theorem Shows.transport {tables : List SymbolTable} {more : List FunctionDecl}
    (shows : layout.Shows awaited tables chain)
    (step : ∀ index ∈ chain, ∀ layer, layout.layers[index]? = some layer →
      ∃ layer', other.layers[index]? = some layer' ∧ ∀ table,
        layer.Matches (layout.awaitedAt awaited index) table →
        layer'.Matches (other.awaitedAt more index) table) :
    other.Shows more tables chain := by
  induction shows with
  | builtIn natives => exact .builtIn natives
  | scope atLayer shown _ ih =>
    obtain ⟨layer', atLayer', carry⟩ := step _ (List.mem_cons_self ..) _ atLayer
    exact .scope atLayer' (carry _ shown) (ih fun index member =>
      step index (List.mem_cons_of_mem _ member))

theorem Clear.transport {name : String} {tables : List SymbolTable}
    (clear : layout.Clear name tables chain)
    (same : ∀ index ∈ chain, layout.owner? index name = none → other.owner? index name = none) :
    other.Clear name tables chain := by
  induction tables generalizing chain with
  | nil => trivial
  | cons table tables ih =>
    cases chain with
    | nil => trivial
    | cons index chain =>
      refine clear.imp_right fun ⟨absent, rest⟩ => ?_
      exact ⟨same index (List.mem_cons_self ..) absent,
        ih rest fun i member => same i (List.mem_cons_of_mem _ member)⟩

/-- What is realized stays so in a layout that has the same layers along the chain. -/
theorem Realizes.congr (realizes : layout.Realizes strict [] scopes free chain)
    (same : ∀ index ∈ chain, other.layers[index]? = layout.layers[index]?) :
    other.Realizes strict [] scopes free chain := by
  refine ⟨realizes.shows.transport fun index member layer atLayer => ?_,
    fun holds name inFree =>
      (realizes.clear holds name inFree).transport fun index member absent => ?_⟩
  · exact ⟨layer, (same index member).trans atLayer, fun table shown => by
      rw [awaitedAt_nil] at shown ⊢; exact shown⟩
  · rw [owner?, same index member]
    exact absent

theorem Realizes.subset {fewer : List String}
    (realizes : layout.Realizes strict awaited scopes free chain)
    (subset : ∀ name ∈ fewer, name ∈ free) : layout.Realizes strict awaited scopes fewer chain :=
  ⟨realizes.shows, fun holds name member => realizes.clear holds name (subset name member)⟩

/-- Functions may be awaited that no table asks for. -/
theorem Realizes.await (realizes : layout.Realizes strict [] scopes free chain)
    (awaited : List FunctionDecl) : layout.Realizes strict awaited scopes free chain := by
  refine ⟨realizes.shows.transport fun index member layer atLayer => ⟨layer, atLayer, ?_⟩,
    realizes.clear⟩
  intro table shown name declaration found
  have known := shown name declaration found
  rw [awaitedAt_nil] at known
  match declaration, known with
  | .variable symbol, known => exact known
  | .function (.user symbol), known => exact Knows.mono known nofun

/-- In a new scope nothing is declared yet. -/
theorem Realizes.push {index : Nat} (realizes : layout.Realizes strict awaited scopes free chain)
    (fresh : layout.layers[index]? = some {}) :
    layout.Realizes strict awaited scopes.push free (index :: chain) := by
  refine ⟨.scope fresh (fun name declaration found => by cases found) realizes.shows, ?_⟩
  intro holds name inFree
  refine .inr ⟨?_, realizes.clear holds name inFree⟩
  rw [owner?, fresh]
  rfl

theorem layers_modifyInnermost (layout : Layout) (change : Layer → Layer) (index : Nat) :
    (layout.modifyInnermost change).layers[index]? =
      if index = layout.top then layout.layers[index]?.map change else layout.layers[index]? := by
  by_cases atTop : index = layout.layers.size - 1
  · simp [modifyInnermost, top, Array.getElem?_modify, atTop]
  · simp [modifyInnermost, top, Array.getElem?_modify, atTop, Ne.symm atTop]

@[simp] theorem modifyInnermost_size (layout : Layout) (change : Layer → Layer) :
    (layout.modifyInnermost change).layers.size = layout.layers.size := by
  simp [modifyInnermost]

@[simp] theorem modifyInnermost_top (layout : Layout) (change : Layer → Layer) :
    (layout.modifyInnermost change).top = layout.top := by
  simp [top]

theorem modifyInnermost_awaitedAt (layout : Layout) (change : Layer → Layer)
    (awaited : List FunctionDecl) (index : Nat) :
    (layout.modifyInnermost change).awaitedAt awaited index = layout.awaitedAt awaited index := by
  unfold awaitedAt
  rw [modifyInnermost_top]

theorem owner?_declare_of_ne {name other : String} {symbol : VariableSymbol}
    (different : other ≠ name)
    (index : Nat) : (layout.declare name symbol).owner? index other = layout.owner? index other := by
  unfold owner? declare
  rw [layers_modifyInnermost]
  split
  · cases layout.layers[index]? with
    | none => rfl
    | some layer => simp [List.lookup_cons, beq_eq_false_iff_ne.mpr different]
  · rfl

theorem Layer.Matches.declare {layer : Layer} {table : SymbolTable} {name : String}
    {symbol : VariableSymbol} (shown : layer.Matches awaited table)
    (isNew : layer.owners.lookup name = none) :
    Layer.Matches { layer with owners := (name, symbol) :: layer.owners } awaited table := by
  intro other declaration found
  have known := shown other declaration found
  match declaration, known with
  | .variable owner, known =>
    have different : other ≠ name := by
      rintro rfl
      cases isNew.symm.trans known
    simpa [Layer.Has, List.lookup_cons, beq_eq_false_iff_ne.mpr different] using known
  | .function (.user _), known => exact known

/-- A variable that is new in its scope takes no name from the functions that were declared before,
unless the name is free in them. -/
theorem Realizes.declare {name : String} {symbol : VariableSymbol}
    (realizes : layout.Realizes strict awaited scopes free chain)
    (isNew : layout.owner? layout.top name = none) (apart : strict → name ∉ free) :
    (layout.declare name symbol).Realizes strict awaited scopes free chain := by
  refine ⟨realizes.shows.transport fun index member layer atLayer => ?_,
    fun holds other inFree =>
      (realizes.clear holds other inFree).transport fun index member absent => ?_⟩
  · simp only [Layout.declare, layers_modifyInnermost, modifyInnermost_awaitedAt, atLayer]
    split
    · rename_i atTop
      rw [← atTop, owner?, atLayer] at isNew
      exact ⟨_, rfl, fun table shown => Layer.Matches.declare shown isNew⟩
    · exact ⟨layer, rfl, fun table shown => shown⟩
  · have different : other ≠ name := fun same => apart holds (same ▸ inFree)
    rw [owner?_declare_of_ne different]
    exact absent

theorem Shows.cons_inv {tables : List SymbolTable} {index : Nat}
    (shows : layout.Shows awaited tables (index :: chain)) :
    ∃ table outer layer, tables = table :: outer ∧ layout.layers[index]? = some layer ∧
      layer.Matches (layout.awaitedAt awaited index) table ∧ layout.Shows awaited outer chain := by
  cases shows with
  | scope atLayer shown rest => exact ⟨_, _, _, rfl, atLayer, shown, rest⟩

theorem Shows.congr_outer {tables : List SymbolTable} {change : Layer → Layer}
    (shows : layout.Shows awaited tables chain) (below : ∀ index ∈ chain, index < layout.top) :
    (layout.modifyInnermost change).Shows awaited tables chain := by
  refine shows.transport fun index member layer atLayer => ⟨layer, ?_, fun table shown => ?_⟩
  · rw [layers_modifyInnermost, if_neg (Nat.ne_of_lt (below index member))]
    exact atLayer
  · rw [modifyInnermost_awaitedAt]
    exact shown

/-- After a `let` the name means the new variable, for the checker and in the run. -/
theorem Realizes.bindVariable {name : String} {symbol : VariableSymbol} {outer : List Nat}
    {later : List String}
    (realizes : layout.Realizes strict awaited scopes free (layout.top :: outer))
    (below : ∀ index ∈ outer, index < layout.top)
    (each : ∀ other ∈ later, other = name ∨ other ∈ free) :
    (layout.declare name symbol).Realizes strict awaited (scopes.bind name (.variable symbol)) later
      (layout.top :: outer) := by
  obtain ⟨shows, clear⟩ := realizes
  obtain ⟨table, tables, layer, shape, atLayer, shown, rest⟩ := shows.cons_inv
  obtain rfl : scopes = ⟨table :: tables⟩ := by cases scopes; exact congrArg _ shape
  constructor
  · refine .scope (by rw [Layout.declare, layers_modifyInnermost, if_pos rfl, atLayer]; rfl) ?_
      (rest.congr_outer below)
    intro other declaration found
    rw [Layout.declare, modifyInnermost_awaitedAt]
    rw [List.lookup_cons] at found
    by_cases same : other = name
    · simp only [same, beq_self_eq_true] at found
      cases found
      simp [Layer.Has, same]
    · simp only [beq_eq_false_iff_ne.mpr same] at found
      have known := shown other declaration found
      match declaration, known with
      | .variable owner, known =>
        simpa [Layer.Has, List.lookup_cons, beq_eq_false_iff_ne.mpr same] using known
      | .function (.user _), known => exact known
  · intro holds other inLater
    by_cases same : other = name
    · exact .inl (by simp [same])
    · have inFree := (each other inLater).resolve_left same
      refine (clear holds other inFree).imp (fun declared => ?_) fun ⟨absent, others⟩ => ?_
      · simpa [List.lookup_cons, beq_eq_false_iff_ne.mpr same] using declared
      · refine ⟨(owner?_declare_of_ne same _).trans absent, Clear.transport others ?_⟩
        intro index member absent'
        exact (owner?_declare_of_ne same _).trans absent'

theorem Layer.Knows.define {layer : Layer} {decl : FunctionDecl} {symbol : FunctionSymbol}
    (knows : layer.Knows (decl :: awaited) symbol) (isNew : layer.functions.lookup decl.id = none)
    (sameId : decl.binding.id = decl.id) :
    Layer.Knows { layer with functions := (decl.id, decl) :: layer.functions } awaited symbol := by
  obtain ⟨owner, same, awaits | defined⟩ := knows
  · rcases List.mem_cons.mp awaits with rfl | awaits
    · exact ⟨owner, same, .inr (by simp [← same, sameId])⟩
    · exact ⟨owner, same, .inl awaits⟩
  · have different : symbol.id ≠ decl.id := by
      intro same
      rw [same, isNew] at defined
      cases defined
    exact ⟨owner, same, .inr (by
      simpa [List.lookup_cons, beq_eq_false_iff_ne.mpr different] using defined)⟩

/-- A function that is awaited gets defined. -/
theorem Realizes.define {decl : FunctionDecl}
    (realizes : layout.Realizes strict (decl :: awaited) scopes free chain)
    (isNew : ∀ layer, layout.layers[layout.top]? = some layer → layer.functions.lookup decl.id = none)
    (sameId : decl.binding.id = decl.id) :
    (layout.define decl).Realizes strict awaited scopes free chain := by
  refine ⟨realizes.shows.transport fun index member layer atLayer => ?_,
    fun holds other inFree =>
      (realizes.clear holds other inFree).transport fun index member absent => ?_⟩
  · simp only [Layout.define, layers_modifyInnermost, modifyInnermost_awaitedAt, atLayer]
    split
    · rename_i atTop
      subst atTop
      refine ⟨_, rfl, fun table shown name declaration found => ?_⟩
      have known := shown name declaration found
      rw [awaitedAt_top] at known ⊢
      match declaration, known with
      | .variable owner, known => exact known
      | .function (.user symbol), known => exact Layer.Knows.define known (isNew layer atLayer) sameId
    · rename_i notTop
      refine ⟨layer, rfl, fun table shown => ?_⟩
      rw [awaitedAt, if_neg notTop] at shown ⊢
      exact shown
  · simp only [owner?, Layout.define, layers_modifyInnermost] at absent ⊢
    split
    · cases atLayer : layout.layers[index]? with
      | none => rfl
      | some layer => simpa [atLayer] using absent
    · exact absent

/-- The checker knows a function before it is defined. -/
theorem Realizes.bindFunction {decl : FunctionDecl} {outer : List Nat}
    (realizes : layout.Realizes strict awaited scopes free (layout.top :: outer))
    (awaits : decl ∈ awaited) (name : String) :
    layout.Realizes strict awaited (scopes.bind name (.function (.user decl.binding))) free
      (layout.top :: outer) := by
  obtain ⟨shows, clear⟩ := realizes
  obtain ⟨table, tables, layer, shape, atLayer, shown, rest⟩ := shows.cons_inv
  obtain rfl : scopes = ⟨table :: tables⟩ := by cases scopes; exact congrArg _ shape
  constructor
  · refine .scope atLayer ?_ rest
    intro other declaration found
    rw [List.lookup_cons] at found
    split at found
    · cases found
      rw [awaitedAt_top]
      exact ⟨decl, rfl, .inl awaits⟩
    · exact shown other declaration found
  · intro holds other inFree
    refine (clear holds other inFree).imp_left fun declared => ?_
    rw [List.lookup_cons]
    split
    · rfl
    · exact declared

theorem Realizes.bindFunctions {decls : List FunctionDecl} {outer : List Nat}
    (realizes : layout.Realizes strict awaited scopes free (layout.top :: outer))
    (awaits : ∀ decl ∈ decls, decl ∈ awaited) :
    layout.Realizes strict awaited (scopes.bindFunctions decls) free (layout.top :: outer) := by
  induction decls generalizing scopes with
  | nil => exact realizes
  | cons decl rest ih =>
    exact ih (realizes.bindFunction (awaits decl (List.mem_cons_self ..)) decl.name)
      fun other member => awaits other (List.mem_cons_of_mem _ member)

/-- The variable that a name means to the checker is there in the static chain, in the scope that
declared it. Only when the name is not clear can a nearer scope hold another of its name. -/
theorem Shows.variable {tables : List SymbolTable} {name : String} {symbol : VariableSymbol}
    (shows : layout.Shows awaited tables chain)
    (found : tables.findSome? (·.values.lookup name) = some (.variable symbol)) :
    ∃ before index after, chain = before ++ index :: after ∧
      layout.owner? index name = some symbol ∧
      (∀ nearer ∈ before, layout.owner? nearer name ≠ some symbol) ∧
      (layout.Clear name tables chain → ∀ nearer ∈ before, layout.owner? nearer name = none) := by
  induction shows with
  | @builtIn table natives =>
    rw [List.findSome?_cons] at found
    split at found
    · rename_i known
      obtain ⟨native, shape⟩ := natives _ _ known
      cases found
      cases shape
    · cases found
  | @scope table tables index chain layer atLayer shown _ ih =>
    by_cases owned : layout.owner? index name = some symbol
    · exact ⟨[], index, chain, rfl, owned, by simp, by simp⟩
    rw [List.findSome?_cons] at found
    split at found
    · rename_i known
      cases found
      have declared : layer.owners.lookup name = some symbol := shown _ _ known
      rw [owner?, atLayer] at owned
      exact (owned declared).elim
    · rename_i unknown
      obtain ⟨before, home, after, shape, homeOwned, first, nearest⟩ := ih found
      refine ⟨index :: before, home, after, by rw [shape]; rfl, homeOwned,
        List.forall_mem_cons.mpr ⟨owned, first⟩, ?_⟩
      rintro (declared | ⟨absent, rest⟩)
      · simp [unknown] at declared
      · exact List.forall_mem_cons.mpr ⟨absent, nearest rest⟩

/-- The function that a name means to the checker is defined in a visible scope. -/
theorem Shows.user {tables : List SymbolTable} {name : String} {symbol : FunctionSymbol}
    (shows : layout.Shows [] tables chain)
    (found : tables.findSome? (·.values.lookup name) = some (.function (.user symbol))) :
    ∃ index ∈ chain, ∃ layer decl, layout.layers[index]? = some layer ∧
      layer.functions.lookup symbol.id = some decl ∧ decl.binding = symbol := by
  induction shows with
  | @builtIn table natives =>
    rw [List.findSome?_cons] at found
    split at found
    · rename_i known
      obtain ⟨native, shape⟩ := natives _ _ known
      cases found
      cases shape
    · cases found
  | @scope table tables index chain layer atLayer shown _ ih =>
    rw [List.findSome?_cons] at found
    split at found
    · rename_i known
      cases found
      obtain ⟨decl, same, awaits | defined⟩ := shown _ _ known
      · rw [awaitedAt_nil] at awaits
        cases awaits
      · exact ⟨index, List.mem_cons_self .., layer, decl, atLayer, defined, same⟩
    · obtain ⟨home, member, rest⟩ := ih found
      exact ⟨home, List.mem_cons_of_mem _ member, rest⟩

theorem Shows.native {tables : List SymbolTable} {name : String} {signature : NativeSignature}
    (shows : layout.Shows awaited tables chain)
    (found : tables.findSome? (·.values.lookup name) = some (.function (.native signature))) :
    ∃ native : Native, signature = native.signature := by
  induction shows with
  | @builtIn table natives =>
    rw [List.findSome?_cons] at found
    split at found
    · rename_i known
      obtain ⟨native, shape⟩ := natives _ _ known
      cases found
      cases shape
      exact ⟨native, rfl⟩
    · cases found
  | @scope table tables index chain layer atLayer shown _ ih =>
    rw [List.findSome?_cons] at found
    split at found
    · rename_i known
      cases found
      exact (shown _ _ known).elim
    · exact ih found

end Layout

end Lu
