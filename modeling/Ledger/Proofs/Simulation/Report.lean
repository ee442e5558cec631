import Ledger.Proofs.Simulation.Balance
import Mathlib.Data.List.Induction

/-!
What a simulation reports when its transfers are called one after another.
-/

namespace Ledger.Simulation

/-- The result of a simulation in which nothing has gone wrong. -/
structure Result.Balances (sim : Simulation) (r : Result) : Prop where
  accounts : r.accounts = sim.accounts
  attempted : r.attempted = if 2 ≤ sim.accounts then sim.transfers else 0
  settled : r.tally.committed + r.tally.insufficientFunds = r.attempted
  others : r.tally.otherFailures = 0
  total : r.totalBalance.value = sim.initialBalance.value * sim.accounts

/-- So many transfers were made or refused for want of money, and none has failed otherwise. -/
structure Tally.Settles (t : Tally) (count : ℕ) : Prop where
  settled : t.committed + t.insufficientFunds = count
  others : t.otherFailures = 0

variable {sim : Simulation} {config : Config} {clock : Nat → Timestamp} {now : Timestamp}
  {t : Tables} {d : Desk} {tally : Tally} {count : ℕ} {requests : List TransferRequest}
  {q : TransferRequest} {outcome : Except LedgerError Reply} {draws : Draws}

theorem Tally.Settles.add (h : tally.Settles count) (houtcome : Settled outcome) :
    (tally.count outcome).Settles (count + 1) := by
  obtain ⟨hsettled, hothers⟩ := h
  cases outcome with
  | ok reply =>
      constructor
      · show tally.committed + 1 + tally.insufficientFunds = count + 1
        omega
      · exact hothers
  | error e =>
      rw [Tally.count, if_pos (houtcome e rfl)]
      constructor
      · show tally.committed + (tally.insufficientFunds + 1) = count + 1
        omega
      · exact hothers

theorem Tally.settles_foldl {outcomes : List (Except LedgerError Reply)} (h : tally.Settles count)
    (houtcomes : ∀ outcome ∈ outcomes, Settled outcome) :
    (outcomes.foldl Tally.count tally).Settles (count + outcomes.length) := by
  induction outcomes generalizing tally count with
  | nil => exact h
  | cons outcome rest ih =>
      obtain ⟨hfirst, hrest⟩ := List.forall_mem_cons.mp houtcomes
      rw [List.foldl_cons, List.length_cons, Nat.add_comm rest.length, ← Nat.add_assoc]
      exact ih (h.add hfirst) hrest

theorem attempt_concat (clock : Nat → Timestamp) (d : Desk) (requests : List TransferRequest)
    (q : TransferRequest) :
    attempt clock d (requests ++ [q]) =
      (((attempt clock d requests).1.call clock (.transfer q)).1,
        (attempt clock d requests).2.count
          ((attempt clock d requests).1.call clock (.transfer q)).2) := by
  rw [attempt, List.foldl_append]
  rfl

theorem attempt_settles (clock : Nat → Timestamp) (hsim : sim.Payable)
    (hready : d.service.Ready config t) (h : sim.Balanced t)
    (hrequests : ∀ q ∈ requests, sim.Planned q) :
    ∃ t', (attempt clock d requests).1.service.Ready config t' ∧ sim.Balanced t' ∧
      (attempt clock d requests).2.Settles requests.length := by
  induction requests using List.reverseRecOn with
  | nil => exact ⟨t, hready, h, rfl, rfl⟩
  | append_singleton requests q ih =>
      obtain ⟨t', hready', h', hsettles⟩ := ih fun q hq => hrequests q (by simp [hq])
      obtain ⟨houtcome, hbalanced⟩ := h'.settle hsim (hrequests q (by simp)) config
        (clock (attempt clock d requests).1.readings)
      obtain ⟨s', hcall, hready''⟩ :=
        hready'.call (clock (attempt clock d requests).1.readings) (.transfer q)
      rw [attempt_concat, Desk.call, hcall, List.length_append, List.length_singleton]
      exact ⟨_, hready'', hbalanced, hsettles.add houtcome⟩

/-- One after another, all planned transfers are made or refused for want of money. -/
theorem run_balances (hsim : sim.Payable) (config : Config) (clock : Nat → Timestamp)
    (draws : Draws) : ∃ r, sim.run config clock draws = .ok r ∧ r.Balances sim := by
  obtain ⟨d, t, hopened, hready, hfunded⟩ := openAccounts_ok hsim config clock
  have htables : d.service.store.tables = t := by rw [hready.store]
  obtain ⟨t', hready', hbalanced, hsettles⟩ :=
    attempt_settles clock hsim hready hfunded.balanced (hfunded.toOpened.planned draws)
  obtain ⟨total, haudit, htotal⟩ := hbalanced.audit_ok hsim
  refine ⟨⟨t.accounts.length, (sim.plan t.accounts draws).length,
    (attempt clock d (sim.plan t.accounts draws)).2, total⟩, ?_, ?_⟩
  · simp only [run, hopened, htables, Service.store_shutdown, hready'.store, haudit]
  · exact ⟨hfunded.length, length_plan_eq hfunded.toOpened draws, hsettles.settled,
      hsettles.others, htotal⟩

end Ledger.Simulation
