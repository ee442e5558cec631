import Ledger.Proofs.Call.Alike
import Ledger.Proofs.Service.Trace

namespace Ledger

variable {R : Timestamp → Timestamp → Prop}

theorem Reply.Alike.topic {reply reply' : Reply} {e e' : Event} (h : reply.Alike R reply')
    (hevent : reply.event? = some e) (hevent' : reply'.event? = some e') : e.topic = e'.topic := by
  cases h <;> cases hevent <;> cases hevent' <;> rfl

/-- Two answers that differ at most in times, or one that tells that its announcement failed. -/
inductive Answered.Alike (R : Timestamp → Timestamp → Prop) (a b : Answered) : Prop
  | same (result : Agree (Reply.Alike R) a.result b.result)
  | left {reply : Reply} {e : LedgerError} (ok : a.result = .ok reply) (error : b.result = .error e)
      (kind : e.kind = .publishFailure)
  | right {reply : Reply} {e : LedgerError} (error : a.result = .error e)
      (ok : b.result = .ok reply) (kind : e.kind = .publishFailure)

namespace Service

/-- Two calls that end before their deadlines: the same request, at related times. -/
inductive Act.Alike (R : Timestamp → Timestamp → Prop) : Act → Act → Prop
  | call {now now' : Timestamp} {r r' : Request} (time : R now now') (request : r.Alike R r') :
      Alike R (.call now r) (.call now' r')

namespace Journal

/-- Journals with the same rows and the same results, up to times. -/
structure Alike (R : Timestamp → Timestamp → Prop) (g g' : Journal) : Prop where
  tables : g.tables.Alike R g'.tables
  answers : List.Forall₂ (fun a b => Agree (Reply.Alike R) a.result b.result) g.answers g'.answers

variable {config config' : Config} {g g' : Journal} {act act' : Act} {acts acts' : List Act}

theorem Alike.step
    (hsizes : ∀ requested, config.pageLimit requested = config'.pageLimit requested)
    (hg : g.Alike R g') (hact : act.Alike R act') :
    (g.step config act).Alike R (g'.step config' act') := by
  cases hact with
  | call htime hrequest =>
      obtain ⟨htables, hresult⟩ := Request.outcome_alike htime hrequest hsizes hg.tables
      exact ⟨htables, List.rel_append hg.answers (.cons hresult .nil)⟩

theorem alike_run (hsizes : ∀ requested, config.pageLimit requested = config'.pageLimit requested)
    (hcalls : List.Forall₂ (Act.Alike R) (acts.filter Act.isCall) (acts'.filter Act.isCall)) :
    (run config acts).Alike R (run config' acts') := by
  rw [← run_filter config, ← run_filter config']
  exact List.rel_foldl (P := Alike R) (R := Act.Alike R)
    (fun _ _ hg _ _ hact => hg.step hsizes hact) ⟨⟨.nil, .nil⟩, .nil⟩ hcalls

end Journal

namespace Reported

variable {a b c d : Answered}

/-- What comes of an announcement changes an answer only into the failure to publish. -/
theorem alike (hab : Reported a b) (hdc : Reported d c)
    (hresult : Agree (Reply.Alike R) b.result c.result) : a.Alike R d := by
  rcases hab.result with ha | ⟨reply, e, hok, hevent, ha⟩
  · rcases hdc.result with hd | ⟨reply', e', hok', hevent', hd⟩
    · rw [← ha, ← hd] at hresult
      exact .same hresult
    · rw [hok'] at hresult
      generalize hb : b.result = result at hresult
      cases hresult with
      | ok _ => exact .left (ha.trans hb) hd rfl
  · rw [hok] at hresult
    generalize hc : c.result = result at hresult
    cases hresult with
    | ok hreply =>
        rcases hdc.result with hd | ⟨reply', e', hok', hevent', hd⟩
        · exact .right ha (hd.trans hc) rfl
        · rw [hc] at hok'
          cases hok'
          have htopic := hreply.topic hevent hevent'
          have hsame : a.result = d.result := by
            rw [ha, hd]
            simp only [Publisher.rejection, Event.message, htopic]
          refine .same ?_
          rw [hsame, hd]
          exact .error _

theorem forall₂_alike {as bs cs ds : List Answered} (h : List.Forall₂ Reported as bs)
    (h' : List.Forall₂ Reported ds cs)
    (hresults : List.Forall₂ (fun b c => Agree (Reply.Alike R) b.result c.result) bs cs) :
    List.Forall₂ (Answered.Alike R) as ds := by
  induction hresults generalizing as ds with
  | nil =>
      cases h
      cases h'
      exact .nil
  | cons hbc _ ih =>
      cases h with
      | cons hab hrest =>
          cases h' with
          | cons hdc hrest' => exact .cons (hab.alike hdc hbc) (ih hrest hrest')

end Reported

namespace Trace

variable {config config' : Config} {acts acts' : List Act}

/-- However two services publish, and however their buses fail, the same calls have the same effect
and the same results, but for failures to publish. The times of the two runs may be related in any
way, and times are the same up to this relation: equality stands for two clocks that agree. -/
theorem publishing_never_influences
    (hsizes : ∀ requested, config.pageLimit requested = config'.pageLimit requested)
    (hcalls : List.Forall₂ (Act.Alike R) (acts.filter Act.isCall) (acts'.filter Act.isCall)) :
    (run config acts).service.store.tables.Alike R (run config' acts').service.store.tables ∧
      List.Forall₂ (Answered.Alike R) (run config acts).answers (run config' acts').answers := by
  have halike := Journal.alike_run hsizes hcalls
  obtain ⟨hstore, hreported⟩ := reported config acts
  obtain ⟨hstore', hreported'⟩ := reported config' acts'
  rw [hstore, hstore']
  exact ⟨halike.tables, Reported.forall₂_alike hreported hreported' halike.answers⟩

/-- An account is opened and gets a deposit. -/
def twoCalls : List Act :=
  [.call .epoch (.openAccount 1 "savings" "USD"), .call .epoch (.deposit 1 1 (.cents 300))]

theorem publishing_never_influences_outage :
    (run { Config.standard with publishMode := .inline } (.setOnline false :: twoCalls)).answers.map
        (·.result.isOk) = [false, false] ∧
      (run .standard twoCalls).answers.map (·.result.isOk) = [true, true] ∧
      (run { Config.standard with publishMode := .inline }
          (.setOnline false :: twoCalls)).service.store.tables =
        (run .standard twoCalls).service.store.tables := by
  have hcalls : List.Forall₂ (Act.Alike Eq) ((.setOnline false :: twoCalls).filter Act.isCall)
      (twoCalls.filter Act.isCall) :=
    .cons (.call rfl (.same fun _ h => by cases h))
      (.cons (.call rfl (.same fun _ h => by cases h)) .nil)
  have hsizes : ∀ requested, { Config.standard with publishMode := .inline }.pageLimit requested =
      Config.standard.pageLimit requested := fun _ => rfl
  exact ⟨by decide +kernel, by decide +kernel,
    (publishing_never_influences hsizes hcalls).1.eq⟩

end Trace

end Service

end Ledger
