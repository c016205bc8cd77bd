import Lu.Proofs.Parse.Blank
import Lu.Proofs.Scoping.Queue
import Lu.Proofs.Source

namespace Lu

/-!
The resolution of names decides lexical scoping.
-/

variable {natives : List NativeSignature} {program : Program}

theorem Program.resolveNames_linked {resolved : Program}
    (distinct : (natives.map NativeSignature.name).Nodup)
    (run : program.resolveNames natives = .ok resolved) :
    resolved.blank = program.blank ∧ Linked (program.sites natives) (resolved.sites natives) := by
  obtain ⟨statements, atStatements, rfl⟩ := Program.resolveNames_eq_ok.mp run
  obtain ⟨same, linked, new⟩ := Stmt.resolveAll_linked program.statements atStatements
    (Scopes.mirrors_ofNatives distinct) List.nodup_nil
  exact ⟨by simp only [Program.blank, same], .scope new linked⟩

theorem Program.resolveNames_succeeds (distinct : (natives.map NativeSignature.name).Nodup)
    (blank : program.blank = program) (lexical : program.LexicallyScoped natives) :
    ∃ resolved, program.resolveNames natives = .ok resolved := by
  obtain ⟨new, sound⟩ := List.forall_mem_cons.mp lexical
  obtain ⟨statements, atStatements⟩ := Stmt.resolveAll_succeeds program.statements false
    (congrArg Program.statements blank) sound (Scopes.mirrors_ofNatives distinct) new
  exact ⟨_, Program.resolveNames_eq_ok.mpr ⟨statements, atStatements, rfl⟩⟩

/-- Names are resolved in just the programs that obey lexical scoping. Then the tree is the same,
and each of its places holds what lexical scoping says. The walk with one queue for all blocks does
just the same, and nothing waits in the queue when it leaves a block. -/
theorem names_resolve_lexically {tokens : List Token} (parsed : parse? tokens = some (.ok program))
    (distinct : (natives.map NativeSignature.name).Nodup) :
    ((∃ resolved, program.resolveNames natives = .ok resolved) ↔
        program.LexicallyScoped natives) ∧
      (∀ resolved, program.resolveNames natives = .ok resolved →
        resolved.blank = program ∧ ∀ site ∈ resolved.sites natives, site.Filled) ∧
      (∀ visited, program.Visits natives visited ↔ program.resolveNames natives = .ok visited) ∧
      ∀ scopes queue body body' queue', Block.Visits scopes queue body body' queue' →
        queue'.isEmpty = true := by
  have blank := parse?_blank parsed
  refine ⟨⟨?_, Program.resolveNames_succeeds distinct blank⟩, fun resolved run => ?_,
    fun visited => Program.visits_iff, fun scopes queue body body' queue' visits => ?_⟩
  · rintro ⟨resolved, run⟩
    exact (Program.resolveNames_linked distinct run).2.sound
  · obtain ⟨same, linked⟩ := Program.resolveNames_linked distinct run
    exact ⟨same.trans blank, linked.filled⟩
  · rw [visits.leaves_nothing]
    rfl

/-- Two functions see each other and a later function of the outer run; a `let` hides a variable
after its own initial value. -/
def nestedSource : String :=
  "let x = 1; fn f(x: int): int \x7b " ++
  "fn g(): int \x7b return h(); \x7d fn h(): int \x7b return k(x); \x7d let x = x; return g(); " ++
  "\x7d fn k(n: int): int \x7b return n; \x7d print(f(x));"

theorem nested_names_resolve : ∃ tokens program, lex nestedSource = .ok tokens ∧
    parse? tokens = some (.ok program) ∧ (Native.signatures.map NativeSignature.name).Nodup ∧
    (∃ resolved, program.resolveNames Native.signatures = .ok resolved) ∧
    program.LexicallyScoped Native.signatures := by
  have accepted : (Source.program nestedSource).toOption.any (fun program =>
      (program.resolveNames Native.signatures).toOption.any fun _ => true) = true := by
    decide +kernel
  obtain ⟨program, read, accepted⟩ := ok_of_any accepted
  obtain ⟨tokens, lexed, parsed⟩ := Source.program_eq_ok.mp read
  obtain ⟨resolved, run, -⟩ := ok_of_any accepted
  have distinct : (Native.signatures.map NativeSignature.name).Nodup := by decide
  have decided := (names_resolve_lexically parsed distinct).1
  exact ⟨tokens, program, lexed, parsed, distinct, ⟨resolved, run⟩, decided.mp ⟨resolved, run⟩⟩

end Lu
