/-
Errors stop a run.

The pipeline and an attempt at adoption end at the first answer that is no answer to what was asked, and return the
error that it stands for. Nothing is sent after a failed write, whatever it failed with, so no migration and no adoption
is reported that did not happen. What is read may be absent, which is told from the code of the status that is answered:
to the pipeline there is no resource then, and to an attempt there is no installation or no object.
-/
import MigrationOperator.Proofs.Adoption.Failure
import MigrationOperator.Proofs.Pipeline.Failure

namespace MigrationOperator

/-- **Runs fail at once, and not without a cause.** However the cluster answers:
- the pipeline stops at a fatal exchange with its error, and each of its errors has a cause;
- it ends without an error when what it reads is absent;
- an attempt at adoption stops at a fatal exchange with its error, and each of its errors has a cause;
- it ends without an error when the secret is absent, and goes on as after an empty list when the list is absent;
- and an error is a conflict when it is one that the cluster answered, with that code, and only then. -/
theorem fail_stop (c : Context) :
    (FailStop (Pipeline.run c) Pipeline.Report.result (Pipeline.due c) ∧
      ∀ es x q, (Pipeline.run c).Reaches (es ++ [x]) q → x.request.isWrite = false → x.answer.Absent →
        ∃ census, q = .done ⟨some census, .ok .noResource⟩) ∧
    (FailStop (Adoption.attempt c).run id (Adoption.due c) ∧
      (∀ es ns name a q, (Adoption.attempt c).run.Reaches (es ++ [⟨⟨ns, .readSecret name⟩, a⟩]) q → a.Absent →
        q = .done (.ok .notLegacy)) ∧
      ∀ es ns a q, (Adoption.attempt c).run.Reaches (es ++ [⟨⟨ns, .list⟩, a⟩]) q → a.Absent →
        ∀ b list, Action.decode ObjectList.codec b = .ok list → list.items = [] →
          (Adoption.attempt c).run.Reaches (es ++ [⟨⟨ns, .list⟩, b⟩]) q) ∧
    ∀ e : OperatorError, e.isConflict = true ↔ ∃ fault, e = .api fault ∧ fault.code = 409 := by
  refine ⟨⟨Pipeline.failStop_run c, ?_⟩, ⟨Adoption.failStop_attempt c, ?_, ?_⟩, ?_⟩
  · intro es x q hreach hread habsent
    exact Pipeline.exists_done_of_absent hreach hread habsent
  · intro es ns name a q hreach habsent
    exact Adoption.eq_done_of_absent_secret hreach habsent
  · intro es ns a q hreach habsent b list hb hempty
    exact Adoption.reaches_of_absent_list hreach habsent hb hempty
  · intro e
    exact OperatorError.isConflict_iff

end MigrationOperator
