import Ledger.Proofs.Call.Alike
import Ledger.Proofs.Call.Effect
import Ledger.Replay

namespace Ledger

/-- Tables with the same rows, whatever their times. -/
abbrev Tables.SameRows (t t' : Tables) : Prop :=
  t.Alike (fun _ _ => True) t'

theorem AccountTable.write_eq {t t' : Tables} (h : t.SameRows t') :
    write t.accounts = write t'.accounts := by
  have hsorted : List.Forall₂ (Account.Alike fun _ _ => True) (sorted t.accounts)
      (sorted t'.accounts) :=
    forall₂_mergeSort h.accounts fun _ _ _ _ hrow hrow' => by rw [hrow.id, hrow'.id]
  have hrecords : (sorted t.accounts).map (fun a => record (fields a)) =
      (sorted t'.accounts).map fun a => record (fields a) := by
    rw [← List.forall₂_eq_eq_eq]
    refine List.rel_map ?_ hsorted
    intro a b hab
    simp only [fields, hab.id, hab.user, hab.product, hab.currency, hab.balance, hab.status]
  rw [write, write, hrecords]

theorem Operation.alike_request (R : Timestamp → Timestamp → Prop) (o : Operation) :
    o.request.Alike R o.request := by
  refine .same ?_
  intro f hf
  cases o <;> cases hf

namespace Replay

/-- Carries out items on from the one with the given index. -/
def go (clock : Nat → Timestamp) (r : Replay) (index : Nat) (items : List Item) : Replay :=
  (items.zipIdx index).foldl (fun r (item, index) => r.step (clock index) item) r

/-- The items that are counted as applied when they are carried out on from the one with the given
index. -/
def kept (clock : Nat → Timestamp) (r : Replay) (index : Nat) : List Item → List Item
  | [] => []
  | item :: rest =>
      let r' := r.step (clock index) item
      if r.applied < r'.applied then item :: r'.kept clock (index + 1) rest
      else r'.kept clock (index + 1) rest

theorem kept_sublist (clock : Nat → Timestamp) (r : Replay) (index : Nat) (items : List Item) :
    (r.kept clock index items).Sublist items := by
  induction items generalizing r index with
  | nil => exact .slnil
  | cons item rest ih =>
      rw [kept]
      split
      · exact (ih _ _).cons_cons _
      · exact (ih _ _).cons _

/-- A replay whose announcements will all be taken, with its tables. -/
abbrev Ready (config : Config) (t : Tables) (r : Replay) : Prop :=
  r.service.Ready config t

variable {config : Config} {t t' : Tables} {r q : Replay} {clock clock' : Nat → Timestamp}
  {now : Timestamp} {o : Operation} {reply : Reply} {e : LedgerError}

theorem ready_start (config : Config) : Ready config {} (start config) :=
  Service.ready_start config

theorem Ready.step_ok (h : Ready config t r)
    (houtcome : o.request.outcome config now t = (t', .ok reply)) :
    ∃ service, Ready config t' { r with service } ∧
      r.step now (.ok o) = { r with service, applied := r.applied + 1 } := by
  obtain ⟨service, hcall, hready⟩ := Service.Ready.call h now o.request
  rw [houtcome] at hcall hready
  refine ⟨service, hready, ?_⟩
  rw [step, hcall]

theorem Ready.step_error (h : Ready config t r)
    (houtcome : o.request.outcome config now t = (t, .error e)) :
    ∃ service, Ready config t { r with service } ∧
      r.step now (.ok o) = { r with service, rejected := r.rejected + 1 } := by
  obtain ⟨service, hcall, hready⟩ := Service.Ready.call h now o.request
  rw [houtcome] at hcall hready
  refine ⟨service, hready, ?_⟩
  rw [step, hcall]

/-- Two replays that have applied the same number of items and have the same rows. -/
structure Pair (config : Config) (r q : Replay) : Prop where
  rows : ∃ t t', Ready config t r ∧ Ready config t' q ∧ t.SameRows t'
  applied : q.applied = r.applied
  rejected : q.rejected = 0
  malformed : q.malformed = 0

theorem Pair.step_cases (h : Pair config r q) (now now' : Timestamp) (item : Item) :
    ((r.step now item).applied = r.applied ∧
        (r.step now item).rejected + (r.step now item).malformed = r.rejected + r.malformed + 1 ∧
        Pair config (r.step now item) q) ∨
      ((r.step now item).applied = r.applied + 1 ∧
        (r.step now item).rejected + (r.step now item).malformed = r.rejected + r.malformed ∧
        Pair config (r.step now item) (q.step now' item)) := by
  obtain ⟨⟨t, t₁, hr, hq, hrows⟩, happlied, hrejected, hmalformed⟩ := h
  cases item with
  | error cause =>
      refine .inl ⟨rfl, (Nat.add_assoc _ _ _).symm, ⟨t, t₁, ?_, hq, hrows⟩, happlied, hrejected,
        hmalformed⟩
      exact ⟨hr.accepts, hr.store, hr.config⟩
  | ok o =>
      rcases o.request.outcome_cases config now t with ⟨e, -, houtcome⟩ | ⟨reply, t', houtcome, -⟩
      · obtain ⟨service, hready, hstep⟩ := hr.step_error houtcome
        rw [hstep]
        refine .inl ⟨rfl, Nat.add_right_comm _ _ _, ⟨t, t₁, ?_, hq, hrows⟩, happlied, hrejected,
          hmalformed⟩
        exact ⟨hready.accepts, hready.store, hready.config⟩
      · have halike : (o.request.outcome config now t).1.SameRows
              (o.request.outcome config now' t₁).1 ∧
            Agree (Reply.Alike fun _ _ => True) (o.request.outcome config now t).2
              (o.request.outcome config now' t₁).2 :=
          Request.outcome_alike trivial (o.alike_request _) (fun _ => rfl) hrows
        cases houtcome' : o.request.outcome config now' t₁ with
        | mk t₁' result =>
            rw [houtcome, houtcome'] at halike
            obtain ⟨hrows', hresult⟩ := halike
            cases hresult with
            | ok hreply =>
                obtain ⟨service, hready, hstep⟩ := hr.step_ok houtcome
                obtain ⟨service', hready', hstep'⟩ := hq.step_ok houtcome'
                rw [hstep, hstep']
                refine .inr ⟨rfl, rfl, ⟨t', t₁', ?_, ?_, hrows'⟩, congrArg (· + 1) happlied,
                  hrejected, hmalformed⟩
                · exact ⟨hready.accepts, hready.store, hready.config⟩
                · exact ⟨hready'.accepts, hready'.store, hready'.config⟩

/-- What was applied in the one replay is applied in the other. -/
theorem Pair.go (h : Pair config r q) (clock clock' : Nat → Timestamp) (items : List Item)
    (index index' : Nat) :
    (r.go clock index items).applied + (r.go clock index items).rejected +
          (r.go clock index items).malformed =
        r.applied + r.rejected + r.malformed + items.length ∧
      (r.go clock index items).applied = r.applied + (r.kept clock index items).length ∧
      Pair config (r.go clock index items) (q.go clock' index' (r.kept clock index items)) := by
  induction items generalizing r q index index' with
  | nil => exact ⟨rfl, rfl, h⟩
  | cons item rest ih =>
      have hgo : r.go clock index (item :: rest) =
          (r.step (clock index) item).go clock (index + 1) rest := rfl
      rw [hgo, kept, List.length_cons]
      -- the second replay takes a step, at its own index, only for an item that is applied
      rcases h.step_cases (clock index) (clock' index') item with ⟨happlied, hcount, hpair⟩ |
        ⟨happlied, hcount, hpair⟩
      · obtain ⟨hsum, hkept, hlater⟩ := ih hpair (index + 1) index'
        rw [if_neg (by omega)]
        exact ⟨by omega, by omega, hlater⟩
      · obtain ⟨hsum, hkept, hlater⟩ := ih hpair (index + 1) (index' + 1)
        rw [if_pos (by omega), List.length_cons]
        exact ⟨by omega, by omega, hlater⟩

theorem pair_start (config : Config) : Pair config (start config) (start config) where
  rows := ⟨{}, {}, ready_start config, ready_start config, ⟨.nil, .nil⟩⟩
  applied := rfl
  rejected := rfl
  malformed := rfl

theorem accounts_shutdown (r : Replay) :
    ({ r with service := r.service.shutdown.1 } : Replay).accounts = r.accounts := by
  rw [accounts, Service.store_shutdown, accounts]

/-- Every item is counted once, and those that are not applied leave no trace: without them, all
others are applied again, with the same table of accounts. -/
theorem only_applied_matter (config : Config) (clock clock' : Nat → Timestamp)
    (items : List Item) :
    let r := run config clock items
    let again := run config clock' ((start config).kept clock 0 items)
    r.applied + r.rejected + r.malformed = items.length ∧
      ((start config).kept clock 0 items).Sublist items ∧
      ((start config).kept clock 0 items).length = r.applied ∧
      again.applied = r.applied ∧ again.rejected = 0 ∧ again.malformed = 0 ∧
      AccountTable.write again.accounts = AccountTable.write r.accounts := by
  obtain ⟨hsum, hkept, hpair⟩ := (pair_start config).go clock clock' items 0 0
  obtain ⟨⟨t, t', hready, hready', hrows⟩, happlied, hrejected, hmalformed⟩ := hpair
  have haccounts : ∀ clock items,
      (run config clock items).accounts = ((start config).go clock 0 items).accounts :=
    fun _ _ => accounts_shutdown _
  refine ⟨?_, kept_sublist clock _ 0 items, ?_, happlied, hrejected, hmalformed, ?_⟩
  · exact hsum.trans (Nat.zero_add _)
  · exact (hkept.trans (Nat.zero_add _)).symm
  · rw [haccounts, haccounts, accounts, accounts, hready.store, hready'.store]
    exact (AccountTable.write_eq hrows).symm

end Replay

end Ledger
