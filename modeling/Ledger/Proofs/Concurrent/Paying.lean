import Ledger.Proofs.Concurrent.Deadlock
import Ledger.Proofs.Concurrent.Linearizability
import Ledger.Proofs.Tables.Payments

/-!
Any number of transfers of the same amount out of one account, at the same time. Each of them reads
the balance, checks it and writes it while it holds the row, so that what comes of them all is what
comes of them one after another, in whichever order they get there.
-/

namespace Ledger

/-- The account that a transfer is to credit. -/
def Request.destination? : Request → Option AccountId
  | .transfer r => some r.destination
  | _ => none

namespace Concurrent

variable {config : Config} {before w w' : World} {a : Action} {actions : List Action}
  {source : Account} {amount : ℚ} {requests : List TransferRequest} {new pre post : List Call}
  {c : Call} {stage stage' : Stage} {m : Move} {k : CallId} {r : Request} {t t' : Tables}

/-- Whether an action is a call's own doing, or its invocation, while the bus takes all events. -/
def Action.isUndisturbed : Action → Bool
  | .invoke _ => true
  | .move _ (.announce (.error _)) => false
  | .move _ m => m.isOwn

def Action.request? : Action → Option Request
  | .invoke r => some r
  | .move .. => none

/-- Whether a call was given up before it has returned. -/
def Stage.isAbandoned : Stage → Bool
  | expired _ | dropped _ => true
  | _ => false

/-- Whether the store work of a call has succeeded, even if the call is yet to return. -/
def Call.hasPaid (c : Call) : Bool :=
  match c.stage.result? with
  | some (.ok _) => true
  | _ => false

def Call.hasPaidTo (id : AccountId) (c : Call) : Bool :=
  c.hasPaid && c.request.destination? = some id

theorem step_of_isOver {s : Store} (h : c.stage.isOver = true) :
    c.step config s k m = none := by
  cases hstage : c.stage with
  | returned | expired | dropped => cases m <;> simp only [Call.step, hstage]
  | _ =>
      rw [hstage] at h
      cases h

theorem Progress.settles (h : Progress config false r t m stage stage' t')
    (hm : (Action.move k m).isUndisturbed = true) :
    stage'.isAbandoned = false ∧
      (t' = t ∧ stage'.result? = stage.result? ∨
        stage.result? = none ∧ ∃ now result, r.outcome config now t = (t', result) ∧
          stage'.result? = some result) := by
  cases h with
  | goes => exact ⟨rfl, .inl ⟨rfl, rfl⟩⟩
  | @ends now _ _ _ result _ outcome _ settled =>
      rcases settled with rfl | rfl
      · exact ⟨rfl, .inr ⟨rfl, now, result, outcome, rfl⟩⟩
      · exact ⟨rfl, .inr ⟨rfl, now, result, outcome, rfl⟩⟩
  | ends_at_fault fault => cases fault
  | fails fault => cases fault
  | expires | cancelled | unannounced | forgotten => cases hm
  | releases | returns | finishes | announces => exact ⟨rfl, .inl ⟨rfl, rfl⟩⟩

theorem Stage.exists_returned (hover : stage.isOver = true) (hkept : stage.isAbandoned = false) :
    ∃ result, stage = .returned result := by
  cases stage with
  | returned result => exact ⟨result, rfl⟩
  | expired | dropped => cases hkept
  | _ => cases hover

theorem World.Sound.of_isOver (hw : w.Sound config true)
    (h : ∀ c ∈ w.calls, c.stage.isOver = true) : w.Sound config false := by
  refine ⟨hw.store, ?_, hw.idle⟩
  intro k c hcall
  have hover := h c (List.mem_of_getElem? hcall)
  have hc := hw.calls k c hcall
  unfold Call.Sound at hc ⊢
  cases hstage : c.stage with
  | returned | expired | dropped =>
      rw [hstage] at hc
      exact hc
  | _ =>
      rw [hstage] at hover
      cases hover

/-- Where the calls and the tables are when some of the payments have been made. Nobody is refused
as long as the balance covers another payment. -/
structure Paying (config : Config) (before : World) (source : Account) (amount : ℚ)
    (new : List Call) (w : World) : Prop where
  sound : w.Sound config false
  calls : w.calls = before.calls ++ new
  kept : ∀ c ∈ new, c.stage.isAbandoned = false
  refused : ∀ c ∈ new, ∀ e, c.stage.result? = some (.error e) →
    Short source amount (new.countP Call.hasPaid) e
  paid : Paid before.store.tables source amount (new.countP Call.hasPaid)
    (fun id => new.countP (Call.hasPaidTo id)) w.store.tables

theorem countP_middle {α : Type} (p : α → Bool) (pre post : List α) (a : α) :
    (pre ++ a :: post).countP p = (pre ++ post).countP p + if p a then 1 else 0 := by
  rw [List.countP_append, List.countP_cons, List.countP_append, Nat.add_assoc]

theorem countP_congr_middle {α : Type} {p : α → Bool} {a b : α} (h : p a = p b)
    (pre post : List α) : (pre ++ a :: post).countP p = (pre ++ b :: post).countP p := by
  rw [countP_middle, countP_middle, h]

theorem exists_set_eq {α : Type} {l : List α} {i : Nat} {a : α} (h : l[i]? = some a) :
    ∃ pre post, l = pre ++ a :: post ∧ ∀ b, l.set i b = pre ++ b :: post := by
  obtain ⟨hlt, rfl⟩ := List.getElem?_eq_some_iff.mp h
  refine ⟨l.take i, l.drop (i + 1), ?_, ?_⟩
  · rw [List.cons_getElem_drop_succ, List.take_append_drop]
  · intro b
    rw [List.set_eq_take_append_cons_drop, if_pos hlt]

theorem hasPaid_congr {c' : Call} (h : c'.stage.result? = c.stage.result?) :
    c'.hasPaid = c.hasPaid := by
  rw [Call.hasPaid, h, Call.hasPaid]

theorem hasPaidTo_congr {c' : Call} (id : AccountId) (hrequest : c'.request = c.request)
    (h : c'.hasPaid = c.hasPaid) : c'.hasPaidTo id = c.hasPaidTo id := by
  rw [Call.hasPaidTo, Call.hasPaidTo, h, hrequest]

namespace Paying

theorem start (hbefore : before.Sound config true) (ht : before.store.tables.WellFormed)
    (hquiet : ∀ c ∈ before.calls, c.stage.isOver = true) (source : Account) (amount : ℚ) :
    Paying config before source amount [] before where
  sound := hbefore.of_isOver hquiet
  calls := (List.append_nil _).symm
  kept _ h := nomatch h
  refused _ h := nomatch h
  paid := Paid.start ht source amount

theorem replaced {c' : Call} (h : Paying config before source amount (pre ++ c :: post) w)
    (hpos : 0 < amount) (hsound : w'.Sound config false)
    (hcalls : w'.calls = before.calls ++ (pre ++ c' :: post))
    (hkept : c'.stage.isAbandoned = false)
    (hmore : (pre ++ c :: post).countP Call.hasPaid ≤ (pre ++ c' :: post).countP Call.hasPaid)
    (hrefused : ∀ e, c'.stage.result? = some (.error e) →
      Short source amount ((pre ++ c :: post).countP Call.hasPaid) e)
    (hpaid : Paid before.store.tables source amount ((pre ++ c' :: post).countP Call.hasPaid)
      (fun id => (pre ++ c' :: post).countP (Call.hasPaidTo id)) w'.store.tables) :
    Paying config before source amount (pre ++ c' :: post) w' := by
  refine ⟨hsound, hcalls, ?_, ?_, hpaid⟩
  · intro other hother
    rcases List.mem_append.mp hother with hpre | hpost
    · exact h.kept other (by simp [hpre])
    · rcases List.mem_cons.mp hpost with rfl | hpost
      · exact hkept
      · exact h.kept other (by simp [hpost])
  · intro other hother e he
    refine Short.mono ?_ hpos hmore
    rcases List.mem_append.mp hother with hpre | hpost
    · exact h.refused other (by simp [hpre]) e he
    · rcases List.mem_cons.mp hpost with rfl | hpost
      · exact hrefused e he
      · exact h.refused other (by simp [hpost]) e he

theorem stays {c' : Call} (h : Paying config before source amount (pre ++ c :: post) w)
    (hpos : 0 < amount) (hsound : w'.Sound config false)
    (hcalls : w'.calls = before.calls ++ (pre ++ c' :: post))
    (hkept : c'.stage.isAbandoned = false) (hrequest : c'.request = c.request)
    (hsame : c'.hasPaid = c.hasPaid) (htables : w'.store.tables = w.store.tables)
    (hrefused : ∀ e, c'.stage.result? = some (.error e) →
      Short source amount ((pre ++ c :: post).countP Call.hasPaid) e) :
    Paying config before source amount (pre ++ c' :: post) w' := by
  have htotal := countP_congr_middle hsame pre post
  have hpaidTo : ∀ id, (pre ++ c' :: post).countP (Call.hasPaidTo id) =
      (pre ++ c :: post).countP (Call.hasPaidTo id) :=
    fun id => countP_congr_middle (hasPaidTo_congr id hrequest hsame) pre post
  refine h.replaced hpos hsound hcalls hkept htotal.ge hrefused ?_
  rw [htables, htotal, funext hpaidTo]
  exact h.paid

theorem pays {c' : Call} {r : TransferRequest} {reply : Reply}
    (h : Paying config before source amount (pre ++ c :: post) w)
    (hpos : 0 < amount) (hsound : w'.Sound config false)
    (hcalls : w'.calls = before.calls ++ (pre ++ c' :: post))
    (hkept : c'.stage.isAbandoned = false) (hrequest : c'.request = .transfer r)
    (hunpaid : c.hasPaid = false) (hresult : c'.stage.result? = some (.ok reply))
    (hpaid : Paid before.store.tables source amount ((pre ++ c :: post).countP Call.hasPaid + 1)
      (Function.update (fun id => (pre ++ c :: post).countP (Call.hasPaidTo id)) r.destination
        ((pre ++ c :: post).countP (Call.hasPaidTo r.destination) + 1)) w'.store.tables) :
    Paying config before source amount (pre ++ c' :: post) w' := by
  have hpaid' : c'.hasPaid = true := by rw [Call.hasPaid, hresult]
  have htotal : (pre ++ c' :: post).countP Call.hasPaid =
      (pre ++ c :: post).countP Call.hasPaid + 1 := by
    rw [countP_middle, countP_middle, hunpaid, hpaid']
    rfl
  have hpaidTo : (fun id => (pre ++ c' :: post).countP (Call.hasPaidTo id)) =
      Function.update (fun id => (pre ++ c :: post).countP (Call.hasPaidTo id)) r.destination
        ((pre ++ c :: post).countP (Call.hasPaidTo r.destination) + 1) := by
    funext id
    rw [countP_middle, Call.hasPaidTo, hpaid', hrequest]
    rcases Decidable.em (id = r.destination) with rfl | hid
    · rw [Function.update_self, countP_middle, Call.hasPaidTo, hunpaid]
      simp [Request.destination?]
    · rw [Function.update_of_ne hid, countP_middle, Call.hasPaidTo, hunpaid]
      simp [Request.destination?, Ne.symm hid]
  refine h.replaced hpos hsound hcalls hkept (by omega) ?_ ?_
  · intro e he
    rw [hresult] at he
    cases he
  · rw [htotal, hpaidTo]
    exact hpaid

theorem added (h : Paying config before source amount new w) (hsound : w'.Sound config false)
    (hcalls : w'.calls = w.calls ++ [c]) (htables : w'.store.tables = w.store.tables)
    (hkept : c.stage.isAbandoned = false) (hnone : c.stage.result? = none) :
    Paying config before source amount (new ++ [c]) w' := by
  have hunpaid : c.hasPaid = false := by rw [Call.hasPaid, hnone]
  have htotal : (new ++ [c]).countP Call.hasPaid = new.countP Call.hasPaid := by
    rw [countP_middle, List.append_nil, hunpaid]
    rfl
  have hpaidTo : ∀ id, (new ++ [c]).countP (Call.hasPaidTo id) =
      new.countP (Call.hasPaidTo id) := by
    intro id
    rw [countP_middle, List.append_nil, Call.hasPaidTo, hunpaid]
    rfl
  refine ⟨hsound, ?_, ?_, ?_, ?_⟩
  · rw [hcalls, h.calls, List.append_assoc]
  · intro other hother
    rcases List.mem_append.mp hother with hold | hlast
    · exact h.kept other hold
    · rw [List.mem_singleton.mp hlast]
      exact hkept
  · intro other hother e he
    rcases List.mem_append.mp hother with hold | hlast
    · rw [htotal]
      exact h.refused other hold e he
    · rw [List.mem_singleton.mp hlast, hnone] at he
      cases he
  · rw [htables, htotal, funext hpaidTo]
    exact h.paid

theorem invoke (hpayments : Payments before.store.tables source amount requests)
    (h : Paying config before source amount new w) {r : TransferRequest} (hr : r ∈ requests) :
    ∃ c : Call, c.request = .transfer r ∧
      Paying config before source amount (new ++ [c]) (w.invoke config (.transfer r)) := by
  refine ⟨⟨.transfer r, .working ((Request.transfer r).program config)⟩, rfl, ?_⟩
  refine h.added (h.sound.invoke _) rfl rfl rfl ?_
  rw [Request.program_transfer, if_neg (hpayments.asked_pos hr), if_neg (hpayments.distinct hr)]
  rfl

theorem countP_hasPaidTo_lt {r : TransferRequest}
    (hrequests : (pre ++ c :: post).map Call.request <+: requests.map .transfer)
    (hc : c.request = .transfer r) (hunpaid : c.hasPaid = false) :
    (pre ++ c :: post).countP (Call.hasPaidTo r.destination) + 1 ≤
      requests.countP (·.destination = r.destination) := by
  have hto : c.request.destination? = some r.destination := by rw [hc]; rfl
  calc (pre ++ c :: post).countP (Call.hasPaidTo r.destination) + 1
      = (pre ++ post).countP (Call.hasPaidTo r.destination) + 1 := by
        rw [countP_middle, Call.hasPaidTo, hunpaid]
        rfl
    _ ≤ (pre ++ post).countP (fun c => c.request.destination? = some r.destination) + 1 := by
        refine Nat.succ_le_succ (List.countP_mono_left fun other _ hother => ?_)
        exact (Bool.and_eq_true_iff.mp hother).2
    _ = (pre ++ c :: post).countP (fun c => c.request.destination? = some r.destination) := by
        rw [countP_middle, if_pos (by simpa using hto)]
    _ = ((pre ++ c :: post).map Call.request).countP
          (fun request => request.destination? = some r.destination) := by
        rw [List.countP_map]
        rfl
    _ ≤ (requests.map Request.transfer).countP
          (fun request => request.destination? = some r.destination) :=
        hrequests.sublist.countP_le
    _ = requests.countP (·.destination = r.destination) := by
        rw [List.countP_map]
        refine List.countP_congr fun other _ => ?_
        simp [Request.destination?]

theorem move (hpayments : Payments before.store.tables source amount requests)
    (hquiet : ∀ c ∈ before.calls, c.stage.isOver = true)
    (h : Paying config before source amount new w)
    (hrequests : new.map Call.request <+: requests.map .transfer)
    (hm : (Action.move k m).isUndisturbed = true)
    (hstep : w.step config (.move k m) = some w') :
    ∃ new', Paying config before source amount new' w' ∧
      new'.map Call.request = new.map Call.request := by
  have hfault : (Action.move k m).isFault = false := by
    cases m with
    | fail e => cases hm
    | _ => rfl
  have hfaults : ∀ e, m = .fail e → false = true := by
    rintro e rfl
    cases hm
  obtain ⟨c, stage, hcall, hcalls, hstepped⟩ := h.sound.stepped hfaults hstep
  have hsound : w'.Sound config false := h.sound.step (fun h => hfault.symm.trans h) hstep
  have hnew : before.calls.length ≤ k := by
    obtain ⟨c', store, stage', hcall', hmove, -⟩ := World.step_move hstep
    by_contra hold
    rw [h.calls, List.getElem?_append_left (Nat.lt_of_not_le hold)] at hcall'
    rw [step_of_isOver (hquiet c' (List.mem_of_getElem? hcall'))] at hmove
    cases hmove
  rw [h.calls] at hcall hcalls
  rw [List.getElem?_append_right hnew] at hcall
  obtain ⟨pre, post, rfl, hset⟩ := exists_set_eq hcall
  rw [List.set_append_right _ _ hnew, hset] at hcalls
  have hc : c ∈ pre ++ c :: post := by simp
  refine ⟨pre ++ { c with stage } :: post, ?_, by simp⟩
  obtain ⟨hkept, ⟨htables, hresult⟩ | ⟨hnone, now, result, houtcome, hresult⟩⟩ :=
    hstepped.progress.settles hm
  · refine h.stays hpayments.positive hsound hcalls hkept rfl (hasPaid_congr hresult) htables ?_
    intro e he
    exact h.refused c hc e (hresult.symm.trans he)
  · have hunpaid : c.hasPaid = false := by rw [Call.hasPaid, hnone]
    obtain ⟨r, hr, hrequest⟩ := List.mem_map.mp (hrequests.subset (List.mem_map_of_mem hc))
    have hlt := countP_hasPaidTo_lt hrequests hrequest.symm hunpaid
    have hle : (pre ++ c :: post).countP (Call.hasPaidTo r.destination) ≤
        (pre ++ c :: post).countP Call.hasPaid :=
      List.countP_mono_left fun other _ hother => (Bool.and_eq_true_iff.mp hother).1
    rw [← hrequest] at houtcome
    rcases h.paid.settle config now hpayments hr hlt hle with
      ⟨e, hrefused, hshort⟩ | ⟨reply, t', hsettled, hpaid⟩
    · rw [hrefused] at houtcome
      obtain ⟨htables, rfl⟩ := Prod.mk.inj houtcome
      have hunpaid' : Call.hasPaid { c with stage } = false := by rw [Call.hasPaid, hresult]
      refine h.stays hpayments.positive hsound hcalls hkept rfl (hunpaid'.trans hunpaid.symm)
        htables.symm ?_
      intro e' he
      rw [hresult] at he
      cases he
      exact hshort
    · rw [hsettled] at houtcome
      obtain ⟨rfl, rfl⟩ := Prod.mk.inj houtcome
      exact h.pays hpayments.positive hsound hcalls hkept hrequest.symm hunpaid hresult hpaid

theorem run (hpayments : Payments before.store.tables source amount requests)
    (hquiet : ∀ c ∈ before.calls, c.stage.isOver = true)
    (h : Paying config before source amount new w)
    (hrequests : new.map Call.request ++ actions.filterMap Action.request? =
      requests.map .transfer)
    (hactions : ∀ a ∈ actions, a.isUndisturbed = true)
    (hrun : w.run config actions = some w') :
    ∃ new', Paying config before source amount new' w' ∧
      new'.map Call.request = requests.map .transfer := by
  induction actions generalizing w new with
  | nil =>
      cases hrun
      exact ⟨new, h, by simpa using hrequests⟩
  | cons a rest ih =>
      obtain ⟨w₁, hstep, hrest⟩ := World.run_cons hrun
      have hactions' : ∀ b ∈ rest, b.isUndisturbed = true := fun b hb => hactions b (by simp [hb])
      cases a with
      | invoke q =>
          cases hstep
          have hq : q ∈ requests.map Request.transfer := by
            rw [← hrequests]
            simp [Action.request?]
          obtain ⟨r, hr, rfl⟩ := List.mem_map.mp hq
          obtain ⟨c, hc, hinvoked⟩ := h.invoke hpayments hr
          refine ih hinvoked ?_ hactions' hrest
          rw [← hrequests, List.map_append, List.append_assoc]
          simp [hc, Action.request?]
      | move k m =>
          have hprefix : new.map Call.request <+: requests.map .transfer := ⟨_, hrequests⟩
          obtain ⟨new', hmoved, hsame⟩ :=
            h.move hpayments hquiet hprefix (hactions _ (by simp)) hstep
          refine ih hmoved ?_ hactions' hrest
          rw [hsame, ← hrequests]
          rfl

end Paying

end Concurrent

end Ledger
