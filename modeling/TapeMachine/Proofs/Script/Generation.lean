import TapeMachine.Proofs.Script.Lexing

/-!
# Generated programs are well formed

A script that binds `program` to a generator, or to a list of them, either writes what the generators mean, or
has a count beyond the limit and writes nothing (`ofScript_generated`).  That is so with every library that
evaluates scripts in the usual way, and the bundled one is such a library (`lawful_semantics`).

What is written is balanced and does not speak to a channel.  So a machine that runs it has nothing that could
fail.  It may run forever, but no bracket ever lacks its partner.
-/

set_option autoImplicit false
namespace TapeMachine.Script

open Operator (loopByte againByte)

/-- **The bundled library evaluates generators in the usual way.** -/
theorem lawful_semantics : semantics.Lawful where
  text?_ofText _ := rfl
  text?_list _ := rfl
  items?_list _ := rfl
  wordArgument_int helper n hn := by
    have hword : wordArgument helper 1 (.int n) = .ok n := if_pos hn
    change (wordArgument helper 1 (.int n)).mapError Fault.toError = _
    rw [hword]
    rfl
  textArgument_ofText _ _ := rfl
  sum_ofText _ _ := rfl
  binds_source p := by
    change (Token.read? p.source).bind parse? = _
    rw [p.read?_source, Option.bind_some, p.parse?_tokens]
  exec_of_eval_ok hc hscript hv _ := Generated.exec_of_eval_ok hc hscript hv
  exec_of_eval_error hc hscript he _ :=
    ⟨_, Generated.exec_of_eval_error hc hscript he, List.subset_cons_self _ _⟩

/-- **Generated programs are well formed.**  Take a library that evaluates scripts in the usual way, and a script
that it takes for one that binds `program` to a generator, or to a list of them, whose counts are any words.
Then

* the script gives a program exactly if no count is beyond the limit;
* otherwise it fails with an error that names the script, and below which the limit is found;
* the program that it gives is the text that is meant.  It is balanced, and a machine at level zero that runs
  it, on data cells of any number, with or without a jump table, under any tick limit and on any channel,
  either comes to its end or is cut off by the limit.  In particular no bracket lacks its partner.

The length of the tape is taken to be a word. -/
theorem ofScript_generated {lib : Library} {S : Semantics lib} (hS : S.Lawful) {p : Generated}
    {script : List UInt8} (hscript : S.binds script p) (name : String) :
    ((∃ program, Program.ofScript lib name script = .ok program) ↔ ∀ n ∈ p.counts, WithinLimit n) ∧
      (∀ e, Program.ofScript lib name script = .error e →
        ∃ cause, e = .source "starlark" name cause ∧ .condition .repeatLimit ∈ cause.chain) ∧
      ∀ program, Program.ofScript lib name script = .ok program →
        program = ⟨.script, name, p.text⟩ ∧ Balanced loopByte againByte p.text ∧
          ∀ {dataLength : Int}, 1 ≤ dataLength → IsWord (1 + p.text.length + dataLength) →
            ∀ (precompute : Bool) (tickLimit : Int), ∃ m,
              Machine.build p.text dataLength ⟨0, precompute, tickLimit⟩ = .ok m ∧
                ∀ {σ : Type} [Channel σ] {m' : Machine} {c c' : σ} {o : Outcome Unit},
                  m.Returns c m' c' o → o = .ok () ∨ o = .error Condition.tickLimit := by
  by_cases h : ∀ n ∈ p.counts, WithinLimit n
  · have hok := ofScript_of_within hS hscript h name
    refine ⟨iff_of_true ⟨_, hok⟩ h, fun e he ↦ ?_, fun program hprogram ↦ ?_⟩
    · cases hok.symm.trans he
    · cases hok.symm.trans hprogram
      refine ⟨rfl, p.balanced_text, fun hd hsize precompute tickLimit ↦ ?_⟩
      refine ⟨_, Machine.build_eq_ok_iff.mpr ⟨Int.le_refl 0, hd, rfl⟩, fun hreturns ↦ ?_⟩
      exact Machine.returns_silent p.balanced_text p.isSilent_text hd hsize precompute tickLimit hreturns
  · obtain ⟨cause, herror, hchain⟩ := ofScript_of_exceeds hS hscript h name
    refine ⟨iff_of_false ?_ h, fun e he ↦ ?_, fun program hprogram ↦ ?_⟩
    · rintro ⟨program, hprogram⟩
      cases herror.symm.trans hprogram
    · cases herror.symm.trans he
      exact ⟨cause, rfl, hchain⟩
    · cases herror.symm.trans hprogram

/-- The generator `add(3) + loop(add(n))`. -/
def counting (n : Int) (hn : IsWord n) : Generated :=
  .one (.concat (.run .add 3 (by decide)) (.loop (.run .add n hn)))

/-- With the bundled library, a count of minus one is written.  The lowest word is beyond the limit, although its
size is not a word. -/
theorem ofScript_generated_counting :
    (∃ script, semantics.binds script (counting (-1) (by decide)) ∧
      Program.ofScript bundled "count" script =
        .ok ⟨.script, "count", [0x2b, 0x2b, 0x2b, 0x5b, 0x2d, 0x5d]⟩) ∧
    ∃ script e, semantics.binds script (counting (-9223372036854775808) (by decide)) ∧
      Program.ofScript bundled "count" script = .error e ∧ .condition .repeatLimit ∈ e.chain := by
  constructor
  · have hscript := lawful_semantics.binds_source (counting (-1) (by decide))
    obtain ⟨hok, -, htext⟩ := ofScript_generated lawful_semantics hscript "count"
    obtain ⟨program, hprogram⟩ := hok.mpr (by decide)
    obtain ⟨rfl, -⟩ := htext program hprogram
    exact ⟨_, hscript, hprogram⟩
  · have hscript := lawful_semantics.binds_source (counting (-9223372036854775808) (by decide))
    obtain ⟨hok, herror, -⟩ := ofScript_generated lawful_semantics hscript "count"
    cases hresult : Program.ofScript bundled "count"
        (counting (-9223372036854775808) (by decide)).source with
    | ok program => exact absurd (hok.mp ⟨program, hresult⟩) (by decide)
    | error e =>
      obtain ⟨cause, rfl, hchain⟩ := herror e hresult
      exact ⟨_, _, hscript, hresult, List.mem_cons_of_mem _ hchain⟩

end TapeMachine.Script
