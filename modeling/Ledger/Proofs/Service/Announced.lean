import Ledger.Proofs.Service.Trace
import Mathlib.Data.List.Pairwise

namespace Ledger.Service

variable {a b : Answered} {as bs : List Answered} {config : Config} {acts : List Act}

namespace Reported

theorem news (h : Reported a b) : a.news = b.news := by
  rw [Answered.news, Answered.news, h.before, h.after]

theorem unchanged (h : Reported a b) (hb : b.Fits) {e : LedgerError}
    (herror : a.result = .error e) (hkind : e.kind ≠ .publishFailure) : a.after = a.before := by
  rcases h.result with hsame | ⟨reply, event, hok, hevent, hfailed⟩
  · rw [h.before, h.after]
    exact (hb.error e (hsame ▸ herror)).2
  · rw [herror] at hfailed
    cases hfailed
    exact absurd rfl hkind

end Reported

namespace Trace

/-- The announcements of all rows that were written, in the order of the calls. -/
def news (t : Trace) : List Event :=
  t.answers.flatMap (·.news)

variable {t : Trace} {g : Journal}

theorem Deferred.flushed (h : Deferred config g t) :
    (t.step .flush).handled.map (·.event) = g.news ∧
      (t.step .flush).service.publisher.published = Verdict.messages (t.step .flush).handled ∧
      (t.step .flush).taken ++ (t.step .flush).service.deadLetters =
        Verdict.givenUp (t.step .flush).handled := by
  obtain ⟨relay, hrelay, htally⟩ := h.relay
  have htally' := htally.toil (relay.load + 1)
  have hdrain := relay.toil_eq_drain t.service.publisher _ (Nat.lt_succ_self _)
  have hquiet : (relay.toil t.service.publisher (relay.load + 1)).1.isQuiet = true := by
    rw [congrArg Prod.fst hdrain]
    exact relay.isQuiet_drain _
  simp only [Trace.step, Service.flush, Service.flushed, Service.deadLetters, hrelay]
  rw [← hdrain]
  exact ⟨htally'.accepted_of_isQuiet hquiet, htally'.published, htally'.letters⟩

end Trace

end Ledger.Service
