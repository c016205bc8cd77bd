import Lu.Proofs.Parse.Completeness
import Lu.Proofs.Print.Derivation
import Lu.Proofs.Print.Shortest
import Lu.Proofs.Print.Spellable
import Lu.Proofs.Source

namespace Lu

/-!
What is printed is read back.
-/

variable {program : Program}

/-- White space between the tokens does not matter, as long as they stay apart. -/
theorem Program.spelled_reads (printable : program.Printable) {source : String}
    (spells : Spells program.tokens source.toList) :
    ∃ read, Source.program source = .ok read ∧ read.bare = program.blank.bare := by
  obtain ⟨tokens, lexed, kinds⟩ := spells.lex
  have derives := Program.tokens_derive printable
  rw [← kinds] at derives
  obtain ⟨result, parsed, -⟩ := parse?_reads (lex_ends lexed)
  obtain ⟨read, rfl, same⟩ := parse?_accepts derives parsed
  exact ⟨read, Source.program_eq_ok.mpr ⟨tokens, lexed, parsed⟩, same⟩

theorem Program.print_spells (printable : program.Printable) :
    Spells program.tokens program.print.toList := by
  rw [Program.print, String.toList_ofList]
  exact layOut_spells (Stmt.allTokens_spellable program.statements printable)

/-- A printed program is read back as the same tree, up to where its parts stand and the numbers of
its functions. No text that is read as that tree has fewer tokens: parentheses are only where they
have to be. -/
theorem printed_program_reads_back (fresh : program.blank = program)
    (printable : program.Printable) :
    (∃ read, Source.program program.print = .ok read ∧ read.bare = program.bare) ∧
      ∀ source read, Source.program source = .ok read → read.bare = program.bare →
        ∃ written printed, lex source = .ok written ∧ lex program.print = .ok printed ∧
          printed.length ≤ written.length := by
  have spells := Program.print_spells printable
  have reads := Program.spelled_reads printable spells
  rw [fresh] at reads
  refine ⟨reads, fun source read run same => ?_⟩
  obtain ⟨written, lexed, parsed⟩ := Source.program_eq_ok.mp run
  obtain ⟨printed, relexed, kinds⟩ := spells.lex
  refine ⟨written, printed, lexed, relexed, ?_⟩
  obtain ⟨result, again, derives⟩ := parse?_reads (lex_ends lexed)
  cases parsed.symm.trans again
  have derives := (derives read rfl).1
  rw [same] at derives
  have shorter := derives.tokens_length_lt
  have length := congrArg List.length kinds
  simp only [List.length_map, List.length_append, List.length_singleton] at length shorter
  omega

/-- Subtraction to the right, signs in front of powers, an assignment inside a sum, a string with
escapes, `else if` and a loop that starts with an assignment. -/
def regroupedTree : Program :=
  let note : ExprNote := ⟨Span.nowhere, .unset⟩
  let int (n : Int64) : Expr := .literal note (.int n)
  let x : Expr := .variable note "x" .unset
  let minus (left right : Expr) : Expr := .binary note .sub left right
  let power (left right : Expr) : Expr := .binary note .pow left right
  let neg (operand : Expr) : Expr := .unary note .neg operand
  let print (text : String) : Stmt := .expr Span.nowhere
    (.call note "prints" Span.nowhere [.literal note (.str text)] .unset)
  let block (statements : List Stmt) : Block := ⟨Span.nowhere, statements⟩
  ⟨[.letVar Span.nowhere ⟨"x", Span.nowhere, some ⟨"int", Span.nowhere⟩,
      minus (minus (int 1) (int 2)) (minus (int 3) (neg (int 4))), .unset, .unset⟩,
    .expr Span.nowhere (power (power (neg x) (int 2)) (power (int 2) (neg (power x (int 3))))),
    .expr Span.nowhere (.binary note .add (.assign note x (.assign note x (int 5))) (int 6)),
    .ifElse Span.nowhere x (block [print "a\"b\\\n"])
      (some (block [.ifElse Span.nowhere (neg (neg x)) (block []) (some (block []))])),
    .forLoop Span.nowhere (.assign (.assign note x (int 0))) (.binary note .less x (int 9))
      (.assign note x (.binary note .add x (int 1))) (block [.continueLoop Span.nowhere])],
    Span.nowhere⟩

theorem regrouped_tree_reads_back : regroupedTree.blank = regroupedTree ∧
    regroupedTree.Printable ∧ regroupedTree.print =
      "let x:int=1-2-(3--4);(-x^2)^2^-(x^3);(x=x=5)+6;" ++
      "if(x)\x7bprints(\"a\\\"b\\\\\\n\");\x7delse if(--x)\x7b\x7delse\x7b\x7d" ++
      "for(x=0;x<9;x=x+1)\x7bcontinue;\x7d" ∧
    ∃ read, Source.program regroupedTree.print = .ok read ∧ read.bare = regroupedTree.bare := by
  have fresh : regroupedTree.blank = regroupedTree := rfl
  have x : IsName "x" := by decide
  have printable : regroupedTree.Printable := by
    refine ⟨⟨x, ?_, ?_⟩, ?_⟩
    · rintro _ ⟨⟩
      exact (by decide : IsName "int")
    · simp [Expr.Printable, Value.Printable]
    · have prints : IsName "prints" := by decide
      simp [Stmt.AllPrintable, Stmt.Printable, Block.Printable, ForInit.Printable, Expr.isAssign,
        Expr.Printable, Expr.Printable.allPrintable, Value.Printable, x, prints]
  exact ⟨fresh, printable, by decide +kernel, (printed_program_reads_back fresh printable).1⟩

end Lu
