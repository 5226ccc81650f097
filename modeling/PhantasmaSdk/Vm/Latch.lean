import PhantasmaSdk.Vm.Patch

/-!
# Errors of the script builder

An operation that fails leaves an error in the builder, which the next call that ends
the script reports (`failed_after_iff`). That call takes the error out, though, and
leaves the code: ended once more, the builder may give a script made of what had been
emitted when the operation failed (`not_latched`). The error is reported again only
where an operation has failed since, or a label is unreachable (`latched_iff`).
-/

namespace PhantasmaSdk.Vm

open ScriptBuilder

/-- An operation that ends the script gives an error and no script. -/
def Op.Refused (b : ScriptBuilder) : Op → Prop
  | endScript => ∃ error, b.endScript.1 = .error (.error error)
  | endScriptHex => ∃ error, b.endScriptHex.1 = .error (.error error)
  | endScriptWithError => ∃ error, b.endScriptWithError.1 = ([], some error)
  | _ => False

/-- An operation has failed since the script was last ended. -/
def FailedSince (ops : List Op) : Prop :=
  ∃ pre op post, ops = pre ++ op :: post ∧ op.Fails ∧ ∀ op ∈ post, ¬op.Finishes

/-- Once an operation has failed, the script is never ended but with an error. -/
def Latched (ops : List Op) : Prop :=
  ∀ pre op, pre ++ [op] <+: ops → op.Finishes → (∃ o ∈ pre, o.Fails) → op.Refused (after pre)

variable {ops : List Op} {op : Op} {b : ScriptBuilder}

theorem Op.Finishes.not_fails (h : op.Finishes) : ¬op.Fails := by
  cases op with
  | endScript | endScriptHex | endScriptWithError => exact id
  | _ => exact h.elim

/-- One operation more fails, or keeps what has failed unless it ends the script. -/
theorem failedSince_concat : FailedSince (ops ++ [op]) ↔
    op.Fails ∨ (¬op.Finishes ∧ FailedSince ops) := by
  simp only [FailedSince, concat_eq_split]
  constructor
  · rintro ⟨pre, x, post, ⟨rfl, rfl, rfl⟩ | ⟨post, rfl, rfl⟩, hx, hpost⟩
    · exact .inl hx
    · rw [List.forall_mem_append, List.forall_mem_singleton] at hpost
      exact .inr ⟨hpost.2, pre, x, post, rfl, hx, hpost.1⟩
  · rintro (hop | ⟨hop, pre, x, post, rfl, hx, hpost⟩)
    · exact ⟨ops, op, [], .inl ⟨rfl, rfl, rfl⟩, hop, fun _ h => absurd h List.not_mem_nil⟩
    · refine ⟨pre, x, post ++ [op], .inr ⟨post, rfl, rfl⟩, hx, ?_⟩
      rw [List.forall_mem_append, List.forall_mem_singleton]
      exact ⟨hpost, hop⟩

/-- Ending the script takes the error out. -/
theorem not_failed_endScriptWithError : ¬b.endScriptWithError.2.Failed := by
  have hemit : (b.emit .ret).error = b.error := rfl
  rw [Failed, not_not, endScriptWithError, hemit]
  rcases herror : b.error with - | error
  · dsimp only
    split <;> exact herror
  · rfl

theorem Op.Finishes.not_failed_exec (h : op.Finishes) : ¬(op.exec b).Failed := by
  have hend : ¬b.endScript.2.Failed := endScript_snd ▸ not_failed_endScriptWithError
  cases op with
  | endScript => exact hend
  | endScriptHex => exact hend
  | endScriptWithError => exact not_failed_endScriptWithError
  | _ => exact h.elim

/-- An error is stored iff an operation has failed since the script was last ended. -/
theorem failed_after_iff (ops : List Op) : (after ops).Failed ↔ FailedSince ops := by
  induction ops using List.reverseRecOn with
  | nil => simp [after, Failed, FailedSince]
  | append_singleton ops op ih =>
    rw [after_concat, failedSince_concat]
    by_cases hop : op.Finishes
    -- Ending the script takes the error out, whether or not it gives a script.
    · refine iff_of_false hop.not_failed_exec fun h => ?_
      exact h.elim hop.not_fails fun h => h.1 hop
    · rw [Op.failed_exec hop, ih, and_iff_right hop, or_comm]

/-- What ends the script gives an error if one is stored or a label is unreachable, and
    a script otherwise. -/
theorem refused_iff (ops : List Op) (h : op.Finishes) :
    op.Refused (after ops) ↔ (after ops).Failed ∨ Unreachable ops := by
  have hend := endScriptWithError_after ops
  match hresult : (after ops).endScriptWithError.1 with
  | (script, none) =>
    rw [hresult] at hend
    have hscript : (after ops).endScript.1 = .ok script := by
      rw [endScript_fst, hresult]
    refine iff_of_false ?_ fun h => h.elim hend.2.1 hend.2.2
    cases op with
    | endScript => exact fun ⟨error, herror⟩ => nomatch hscript.symm.trans herror
    | endScriptHex =>
      rintro ⟨error, herror⟩
      change (after ops).endScript.1.map _ = _ at herror
      rw [hscript] at herror
      cases herror
    | endScriptWithError => exact fun ⟨error, herror⟩ => nomatch hresult.symm.trans herror
    | _ => exact h.elim
  | (script, some error) =>
    rw [hresult] at hend
    have hscript : (after ops).endScript.1 = .error (.error error) := by
      rw [endScript_fst, hresult]
    refine iff_of_true ?_ hend.2
    cases op with
    | endScript => exact ⟨error, hscript⟩
    | endScriptHex =>
      refine ⟨error, ?_⟩
      change (after ops).endScript.1.map _ = _
      rw [hscript]
      rfl
    | endScriptWithError => exact ⟨error, hend.1 ▸ hresult⟩
    | _ => exact h.elim

/-- Errors latch, in a run, if and only if whenever the script is ended after an
    operation has failed, one has failed since it was last ended or a label is
    unreachable. -/
theorem latched_iff (ops : List Op) : Latched ops ↔
    ∀ pre op, pre ++ [op] <+: ops → op.Finishes → (∃ o ∈ pre, o.Fails) →
      FailedSince pre ∨ Unreachable pre := by
  have hiff (pre : List Op) (op : Op) (h : op.Finishes) :
      op.Refused (after pre) ↔ FailedSince pre ∨ Unreachable pre := by
    rw [refused_iff pre h, failed_after_iff]
  constructor
  · intro hlatched pre op hpre hop hfailed
    exact (hiff pre op hop).1 (hlatched pre op hpre hop hfailed)
  · intro h pre op hpre hop hfailed
    exact (hiff pre op hop).2 (h pre op hpre hop hfailed)

/-- A call with no registers is refused, and the script is ended twice. -/
def endedTwice : List Op := [.emitCall "done" 0, .endScript, .endScript]

theorem not_latched : ¬Latched endedTwice := by
  intro h
  obtain ⟨error, herror⟩ := h [.emitCall "done" 0, .endScript] .endScript List.prefix_rfl trivial
    ⟨_, List.mem_cons_self, .inl rfl⟩
  have hscript : (after [.emitCall "done" 0, .endScript]).endScript.1 = .ok [11, 11] := by
    decide +kernel
  cases hscript.symm.trans herror

end PhantasmaSdk.Vm
