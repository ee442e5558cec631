import Ledger.Proofs.Relay.Tally
import Ledger.Proofs.Tables.WellFormed
import Mathlib.Data.List.Nodup

namespace Ledger

/-- The announcement that was due when an account was opened. -/
def Account.opening (row : Account) : Event :=
  .ofAccount { row with status := .active }

namespace Event

@[simp] theorem topic_ofAccount (row : Account) : (ofAccount row).topic = "account.created" :=
  rfl

@[simp] theorem topic_ofTransaction (entry : Transaction) :
    (ofTransaction entry).topic = "transaction.completed" :=
  rfl

end Event

namespace Tables

/-- The announcements of the rows that the second tables have more than the first, the accounts
before the log. -/
def news (t t' : Tables) : List Event :=
  (t'.accounts.drop t.accounts.length).map .ofAccount ++
    (t'.log.drop t.log.length).map .ofTransaction

variable {t t' : Tables} {now : Timestamp} {row old : Account} {new : NewTransaction}

@[simp] theorem news_self (t : Tables) : t.news t = [] := by
  simp [news]

@[simp] theorem length_update (t : Tables) (now : Timestamp) (row : Account) :
    (t.update now row).accounts.length = t.accounts.length := by
  simp [update, replace]

@[simp] theorem log_update (t : Tables) (now : Timestamp) (row : Account) :
    (t.update now row).log = t.log :=
  rfl

@[simp] theorem newEntry_update (t : Tables) (now : Timestamp) (row : Account)
    (new : NewTransaction) : (t.update now row).newEntry now new = t.newEntry now new :=
  rfl

theorem news_update (t : Tables) (now : Timestamp) (row : Account) :
    t.news (t.update now row) = [] := by
  simp [news]

theorem news_insert (t : Tables) (now : Timestamp) (new : NewAccount) :
    t.news (t.insert now new) = [.ofAccount (t.newRow now new)] := by
  simp [news, insert]

theorem news_enter (hlength : t'.accounts.length = t.accounts.length) (hlog : t'.log = t.log)
    (now : Timestamp) (new : NewTransaction) :
    t.news (t'.enter now new) = [.ofTransaction (t'.newEntry now new)] := by
  simp [news, enter, hlog, ← hlength]

theorem openings_update (now : Timestamp) (row : Account)
    (hids : (t.accounts.map (·.id)).Pairwise (· < ·)) (hfind : t.find? row.id = some old)
    (hopening : row.opening = old.opening) :
    (t.update now row).accounts.map (·.opening) = t.accounts.map (·.opening) := by
  simp only [update, replace, List.map_map]
  refine List.map_congr_left ?_
  intro other hother
  simp only [Function.comp_apply]
  split
  · rename_i hid
    have hnodup : (t.accounts.map (·.id)).Nodup := hids.imp Nat.ne_of_lt
    have hsame : other = old := List.inj_on_of_nodup_map hnodup hother (mem_of_find? hfind)
      (hid.trans (id_of_find? hfind).symm)
    rw [hsame, ← hopening]
    rfl
  · rfl

end Tables

namespace Effect

variable {config : Config} {now : Timestamp} {t t' : Tables} {r : Request} {reply : Reply}

/-- The rows that a request writes are those that its reply announces. -/
theorem news (h : Effect config now t r reply t') : t.news t' = reply.event?.toList := by
  cases h with
  | opened => exact t.news_insert now _
  | deposited => exact Tables.news_enter (Tables.length_update t now _) rfl now _
  | @transferred _ source destination _ debited credited =>
      refine Tables.news_enter ?_ ?_ now _
      · rw [Tables.length_update, Tables.length_update]
      · rfl
  | closed => exact t.news_update now _
  | _ => exact t.news_self

theorem openings (h : Effect config now t r reply t') (ht : t.WellFormed) :
    t'.accounts.map (·.opening) =
        t.accounts.map (·.opening) ++ (t.news t').filter (·.topic = "account.created") ∧
      t'.log.map .ofTransaction =
        t.log.map .ofTransaction ++ (t.news t').filter (·.topic = "transaction.completed") := by
  rw [h.news]
  cases h with
  | @opened user product currency new accepted =>
      have hactive : (t.newRow now new).status = .active :=
        (NewAccount.accepted_ofInput accepted).active
      have hopening : (t.newRow now new).opening = .ofAccount (t.newRow now new) := by
        rw [Account.opening, ← hactive]
      simp [Tables.insert, Reply.event?, hopening]
  | @deposited _ _ _ _ balance row _ found =>
      have hself := find?_self found
      have hrow := Tables.openings_update now { row with balance } ht.ascending hself rfl
      simp [Reply.event?, Tables.enter, hrow]
  | @transferred _ source destination _ debited credited _ distinct from_found _ to_found =>
      have hself := find?_self from_found
      have hself' := find?_destination now debited distinct from_found to_found
      have hids : ((t.update now { source with balance := debited }).accounts.map (·.id)).Pairwise
          (· < ·) := (Tables.ids_update t now _).symm ▸ ht.ascending
      have hrow := Tables.openings_update now { source with balance := debited } ht.ascending hself
        rfl
      have hrow' := Tables.openings_update now { destination with balance := credited } hids hself'
        rfl
      simp [Reply.event?, Tables.enter, hrow, hrow']
  | @closed _ _ row found =>
      have hself := find?_self found
      have hrow := Tables.openings_update now { row with status := .closed } ht.ascending hself rfl
      simp [Reply.event?, hrow]
  | _ => simp [Reply.event?]

theorem log_cases (h : Effect config now t r reply t') :
    t'.log = t.log ∨ ∃ new, t'.log = t.log ++ [t.newEntry now new] := by
  cases h with
  | deposited | transferred => exact .inr ⟨_, rfl⟩
  | _ => exact .inl rfl

theorem event?_of_close {user : UserId} {id : AccountId}
    (h : Effect config now t (.close user id) reply t') : reply.event? = none := by
  cases h <;> rfl

end Effect

/-- A call that has been answered, with the tables before and after it. -/
structure Answered where
  request : Request
  before : Tables
  after : Tables
  result : Except LedgerError Reply

namespace Answered

/-- The announcements of the rows that the call wrote. -/
def news (a : Answered) : List Event :=
  a.before.news a.after

/-- The answer when every announcement is taken. -/
def ofRequest (config : Config) (now : Timestamp) (t : Tables) (r : Request) : Answered :=
  ⟨r, t, (r.outcome config now t).1, (r.outcome config now t).2⟩

/-- An answer that fits the rows that were written: exactly those it announces. -/
structure Fits (a : Answered) : Prop where
  ok : ∀ reply, a.result = .ok reply → a.news = reply.event?.toList
  error : ∀ e, a.result = .error e → e.kind ≠ .publishFailure ∧ a.after = a.before
  close : ∀ user id, a.request = .close user id → a.news = []

theorem fits_of_error {r : Request} {t : Tables} {e : LedgerError} (h : e.kind ≠ .publishFailure) :
    Fits ⟨r, t, t, .error e⟩ where
  ok _ hok := nomatch hok
  error _ herror := by
    cases herror
    exact ⟨h, rfl⟩
  close _ _ _ := t.news_self

theorem fits_of_effect {config : Config} {now : Timestamp} {r : Request} {reply : Reply}
    {t t' : Tables} (h : Effect config now t r reply t') : Fits ⟨r, t, t', .ok reply⟩ where
  ok _ hok := by
    cases hok
    exact h.news
  error _ herror := nomatch herror
  close user id hclose := by
    rw [show r = .close user id from hclose] at h
    rw [news, h.news, h.event?_of_close]
    rfl

end Answered

namespace Service

/-- What can happen while one caller uses a service: a call is answered or runs past its deadline,
the bus is switched or told to refuse messages, the worker of the relay takes a step, the relay is
flushed, or its dead letters are taken away. -/
inductive Act where
  | call (now : Timestamp) (r : Request)
  | expire (r : Request)
  | setOnline (online : Bool)
  | failNext (count : Nat)
  | work
  | flush
  | takeDeadLetters

/-- Whether the ledger is called. -/
def Act.isCall : Act → Bool
  | call .. | expire _ => true
  | _ => false

/-- The answer of a call whose deadline passes before anything is committed. A call that is refused
before it turns to the store, or has no deadline, does not end so. -/
def expiry? (config : Config) (r : Request) : Option LedgerError :=
  match r.work config, config.timeout with
  | .ok _, some limit => some (.persistence (.timeout limit.millis))
  | _, _ => none

theorem kind_of_expiry? {config : Config} {r : Request} {e : LedgerError}
    (h : expiry? config r = some e) : e.kind ≠ .publishFailure := by
  unfold expiry? at h
  split at h
  · cases h
    exact nofun
  · cases h

/-- The tables, and the answers of the calls, as they are when every announcement is taken. -/
structure Journal where
  tables : Tables := {}
  answers : List Answered := []

namespace Journal

def add (g : Journal) (a : Answered) : Journal :=
  ⟨a.after, g.answers ++ [a]⟩

/-- A journal with one more answer, of a call that failed before anything was written. -/
def refuse (g : Journal) (r : Request) (e : LedgerError) : Journal :=
  g.add ⟨r, g.tables, g.tables, .error e⟩

def step (config : Config) (g : Journal) : Act → Journal
  | .call now r => g.add (.ofRequest config now g.tables r)
  | .expire r =>
      match expiry? config r with
      | some e => g.refuse r e
      | none => g
  | _ => g

def run (config : Config) (acts : List Act) : Journal :=
  acts.foldl (step config) {}

/-- The announcements of all rows that were written. -/
def news (g : Journal) : List Event :=
  g.answers.flatMap (·.news)

/-- The journal has every row announced once, in the order of the commits. -/
structure Sound (g : Journal) : Prop where
  wellFormed : g.tables.WellFormed
  numbered : g.tables.log.map (·.id) = (List.range g.tables.log.length).map (· + 1)
  openings : g.news.filter (·.topic = "account.created") = g.tables.accounts.map (·.opening)
  entries : g.news.filter (·.topic = "transaction.completed") = g.tables.log.map .ofTransaction
  answers : ∀ a ∈ g.answers, a.Fits

variable {config : Config} {now : Timestamp} {g : Journal} {r : Request} {reply : Reply}
  {t' : Tables} {e : LedgerError}

theorem news_add (g : Journal) (a : Answered) : (g.add a).news = g.news ++ a.news := by
  simp [news, add]

theorem news_refuse (g : Journal) (r : Request) (e : LedgerError) :
    (g.refuse r e).news = g.news := by
  rw [refuse, news_add, Answered.news, Tables.news_self, List.append_nil]

theorem step_call_of_error (houtcome : r.outcome config now g.tables = (g.tables, .error e)) :
    g.step config (.call now r) = g.refuse r e := by
  rw [Journal.step, Answered.ofRequest, houtcome, refuse]

theorem step_call_of_ok (houtcome : r.outcome config now g.tables = (t', .ok reply)) :
    g.step config (.call now r) = g.add ⟨r, g.tables, t', .ok reply⟩ := by
  rw [Journal.step, Answered.ofRequest, houtcome]

theorem sound_start : Sound {} where
  wellFormed := Tables.wellFormed_empty
  numbered := by simp
  openings := by simp [news]
  entries := by simp [news]
  answers := by simp

theorem Sound.answers_add {a : Answered} (hg : g.Sound) (ha : a.Fits) :
    ∀ b ∈ (g.add a).answers, b.Fits := by
  intro b hb
  rcases List.mem_append.mp hb with hold | hnew
  · exact hg.answers b hold
  · exact List.mem_singleton.mp hnew ▸ ha

theorem Sound.refuse (hg : g.Sound) (r : Request) (h : e.kind ≠ .publishFailure) :
    (g.refuse r e).Sound where
  wellFormed := hg.wellFormed
  numbered := hg.numbered
  openings := news_refuse g r e ▸ hg.openings
  entries := news_refuse g r e ▸ hg.entries
  answers := hg.answers_add (Answered.fits_of_error h)

theorem Sound.effect (hg : g.Sound) (h : Effect config now g.tables r reply t') :
    (g.add ⟨r, g.tables, t', .ok reply⟩).Sound := by
  obtain ⟨hopenings, hentries⟩ := h.openings hg.wellFormed
  refine ⟨h.wellFormed hg.wellFormed, ?_, ?_, ?_, hg.answers_add (Answered.fits_of_effect h)⟩
  · rcases h.log_cases with hlog | ⟨new, hlog⟩
    · simp only [add, hlog]
      exact hg.numbered
    · simp only [add, hlog, List.map_append, hg.numbered, List.length_append, List.length_singleton,
        List.range_succ]
      rfl
  · rw [news_add, List.filter_append, hg.openings]
    exact hopenings.symm
  · rw [news_add, List.filter_append, hg.entries]
    exact hentries.symm

theorem Sound.step (hg : g.Sound) (act : Act) : (g.step config act).Sound := by
  cases act with
  | call now r =>
      rcases r.outcome_cases config now g.tables with ⟨e, hkind, houtcome⟩ |
        ⟨reply, t', houtcome, heffect⟩
      · rw [step_call_of_error houtcome]
        exact hg.refuse r hkind
      · rw [step_call_of_ok houtcome]
        exact hg.effect heffect
  | expire r =>
      rw [Journal.step]
      split
      · rename_i e hexpiry
        exact hg.refuse r (kind_of_expiry? hexpiry)
      · exact hg
  | _ => exact hg

theorem Sound.run (hg : g.Sound) (acts : List Act) :
    (acts.foldl (Journal.step config) g).Sound := by
  induction acts generalizing g with
  | nil => exact hg
  | cons act rest ih => exact ih (hg.step act)

theorem foldl_filter (config : Config) (g : Journal) (acts : List Act) :
    (acts.filter Act.isCall).foldl (step config) g = acts.foldl (step config) g := by
  induction acts generalizing g with
  | nil => rfl
  | cons act rest ih =>
      rw [List.filter_cons]
      cases act with
      | call | expire => exact ih _
      | _ => exact ih g

theorem run_filter (config : Config) (acts : List Act) :
    Journal.run config (acts.filter Act.isCall) = Journal.run config acts :=
  foldl_filter config {} acts

end Journal

end Service

end Ledger
