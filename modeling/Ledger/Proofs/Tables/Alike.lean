import Ledger.Proofs.Call.Exec
import Mathlib.Data.List.Forall2

namespace Ledger

/-- Two results that are the same error, or related values. -/
inductive Agree {ε α β : Type} (S : α → β → Prop) : Except ε α → Except ε β → Prop
  | ok {a : α} {b : β} (h : S a b) : Agree S (.ok a) (.ok b)
  | error (e : ε) : Agree S (.error e) (.error e)

theorem isSome_eq_of_rel {α β : Type} {S : α → β → Prop} {a : Option α} {b : Option β}
    (h : Option.Rel S a b) : a.isSome = b.isSome := by
  cases h <;> rfl

theorem forall₂_mergeSort {α β : Type} {S : α → β → Prop} {le : α → α → Bool} {le' : β → β → Bool}
    {l : List α} {l' : List β} (h : List.Forall₂ S l l')
    (hle : ∀ a a' b b', S a b → S a' b' → le a a' = le' b b') :
    List.Forall₂ S (l.mergeSort le) (l'.mergeSort le') := by
  have hlength := h.length_eq
  have hpair : ∀ x ∈ l.zip l', S x.1 x.2 := fun x hx => List.forall₂_zip h hx
  have hfst : (l.zip l').map Prod.fst = l := List.map_fst_zip (Nat.le_of_eq hlength)
  have hsnd : (l.zip l').map Prod.snd = l' := List.map_snd_zip (Nat.le_of_eq hlength.symm)
  have hsorted := List.map_mergeSort (r := fun x y => le x.1 y.1) (s := le) (f := Prod.fst)
    (l := l.zip l') fun _ _ _ _ => rfl
  have hsorted' := List.map_mergeSort (r := fun x y => le x.1 y.1) (s := le') (f := Prod.snd)
    (l := l.zip l') fun x hx y hy => hle _ _ _ _ (hpair x hx) (hpair y hy)
  rw [hfst] at hsorted
  rw [hsnd] at hsorted'
  rw [← hsorted, ← hsorted', List.forall₂_map_left_iff, List.forall₂_map_right_iff,
    List.forall₂_same]
  intro x hx
  exact hpair x (List.mem_mergeSort.mp hx)

theorem forall₂_find? {α β : Type} {S : α → β → Prop} {p : α → Bool} {q : β → Bool} {l : List α}
    {l' : List β} (h : List.Forall₂ S l l') (hpq : ∀ a b, S a b → p a = q b) :
    Option.Rel S (l.find? p) (l'.find? q) := by
  induction h with
  | nil => exact .none
  | @cons a b _ _ hab _ ih =>
      rw [List.find?_cons, List.find?_cons, hpq a b hab]
      cases q b with
      | true => exact .some hab
      | false => exact ih

theorem forall₂_getLast? {α β : Type} {S : α → β → Prop} {l : List α} {l' : List β}
    (h : List.Forall₂ S l l') : Option.Rel S l.getLast? l'.getLast? := by
  rw [List.getLast?_eq_head?_reverse, List.getLast?_eq_head?_reverse]
  match l.reverse, l'.reverse, List.rel_reverse h with
  | _, _, .nil => exact .none
  | _, _, .cons hab _ => exact .some hab

theorem forall₂_getElem? {α β : Type} {S : α → β → Prop} {l : List α} {l' : List β}
    (h : List.Forall₂ S l l') (n : Nat) : Option.Rel S l[n]? l'[n]? := by
  induction h generalizing n with
  | nil => exact .none
  | cons hab _ ih =>
      cases n with
      | zero => exact .some hab
      | succ n => exact ih n

theorem forM_eq_of_forall₂ {ε α β : Type} {S : α → β → Prop} {f : α → Except ε Unit}
    {g : β → Except ε Unit} {l : List α} {l' : List β} (h : List.Forall₂ S l l')
    (hfg : ∀ a b, S a b → f a = g b) : l.forM f = l'.forM g := by
  induction h with
  | nil => rfl
  | cons hab _ ih => simp only [List.forM, hfg _ _ hab, ih]

variable {R : Timestamp → Timestamp → Prop}

/-- Two accounts that differ at most in their times, which are related. -/
structure Account.Alike (R : Timestamp → Timestamp → Prop) (a b : Account) : Prop where
  id : a.id = b.id
  user : a.user = b.user
  product : a.product = b.product
  currency : a.currency = b.currency
  balance : a.balance = b.balance
  status : a.status = b.status
  version : a.version = b.version
  createdAt : R a.createdAt b.createdAt
  updatedAt : R a.updatedAt b.updatedAt

/-- Two log rows that differ at most in their times, which are related. -/
structure Transaction.Alike (R : Timestamp → Timestamp → Prop) (a b : Transaction) : Prop where
  id : a.id = b.id
  user : a.user = b.user
  source : a.source = b.source
  destination : a.destination = b.destination
  amount : a.amount = b.amount
  description : a.description = b.description
  kind : a.kind = b.kind
  createdAt : R a.createdAt b.createdAt

/-- Tables with the same rows, up to their times. -/
structure Tables.Alike (R : Timestamp → Timestamp → Prop) (t t' : Tables) : Prop where
  accounts : List.Forall₂ (Account.Alike R) t.accounts t'.accounts
  log : List.Forall₂ (Transaction.Alike R) t.log t'.log

/-- Two filters that differ at most in their bounds on time, which are related. -/
structure Filter.Alike (R : Timestamp → Timestamp → Prop) (f f' : Filter) : Prop where
  user : f.user = f'.user
  kind : f.kind = f'.kind
  since : Option.Rel R f.since f'.since
  till : Option.Rel R f.till f'.till
  least : f.least = f'.least
  most : f.most = f'.most
  page : f.page = f'.page
  limit : f.limit = f'.limit

/-- Related times have the same order. -/
def KeepsOrder (R : Timestamp → Timestamp → Prop) : Prop :=
  ∀ a a' b b', R a b → R a' b' → (a ≤ a' ↔ b ≤ b')

namespace Account.Alike

variable {a b : Account} {now now' : Timestamp}

theorem withVersion (h : a.Alike R b) (version : Nat) :
    Account.Alike R { a with version } { b with version } :=
  { h with version := rfl }

theorem stamp (h : a.Alike R b) (hnow : R now now') :
    (Tables.stamp now a).Alike R (Tables.stamp now' b) :=
  { h with version := congrArg (· + 1) h.version, updatedAt := hnow }

end Account.Alike

theorem Account.Alike.eq {a b : Account} (h : a.Alike Eq b) : a = b := by
  cases a
  cases b
  cases h
  simp_all

theorem Transaction.Alike.eq {a b : Transaction} (h : a.Alike Eq b) : a = b := by
  cases a
  cases b
  cases h
  simp_all

namespace Tables.Alike

theorem eq {t t' : Tables} (h : t.Alike Eq t') : t = t' := by
  have haccounts := h.accounts.imp fun _ _ => Account.Alike.eq
  have hlog := h.log.imp fun _ _ => Transaction.Alike.eq
  rw [List.forall₂_eq_eq_eq] at haccounts hlog
  cases t
  cases t'
  simp_all

variable {t t' : Tables} {a b : Account} {now now' : Timestamp}

theorem find? (h : t.Alike R t') (id : AccountId) :
    Option.Rel (Account.Alike R) (t.find? id) (t'.find? id) :=
  forall₂_find? h.accounts fun a b hab => by rw [hab.id]

theorem account (h : t.Alike R t') (id : AccountId) :
    Agree (Account.Alike R) (t.account id) (t'.account id) := by
  unfold Tables.account
  match t.find? id, t'.find? id, h.find? id with
  | _, _, .none => exact .error _
  | _, _, .some hrow => exact .ok hrow

theorem ownedAccount (h : t.Alike R t') (owner : UserId) (id : AccountId) :
    Agree (Account.Alike R) (t.ownedAccount owner id) (t'.ownedAccount owner id) := by
  unfold Tables.ownedAccount
  match t.find? id, t'.find? id, h.find? id with
  | _, _, .none => exact .error _
  | _, _, .some hrow =>
      simp only [hrow.user]
      split
      · exact .ok hrow
      · exact .error _

theorem accountsOf (h : t.Alike R t') (owner : UserId) :
    List.Forall₂ (Account.Alike R) (t.accountsOf owner) (t'.accountsOf owner) :=
  List.rel_filter (fun a b hab => by simp [hab.user]) h.accounts

theorem transaction (h : t.Alike R t') (id : TransactionId) :
    Agree (Transaction.Alike R) (t.transaction id) (t'.transaction id) := by
  unfold Tables.transaction
  by_cases hid : id = 0
  · rw [if_pos hid, if_pos hid]
    exact .error _
  · rw [if_neg hid, if_neg hid]
    match t.log[id - 1]?, t'.log[id - 1]?, forall₂_getElem? h.log (id - 1) with
    | _, _, .none => exact .error _
    | _, _, .some hentry => exact .ok hentry

theorem nextId (h : t.Alike R t') : t.nextId = t'.nextId := by
  unfold Tables.nextId
  match t.accounts.getLast?, t'.accounts.getLast?, forall₂_getLast? h.accounts with
  | _, _, .none => rfl
  | _, _, .some hrow => exact congrArg (· + 1) hrow.id

theorem newRow (h : t.Alike R t') (hnow : R now now') (new : NewAccount) :
    (t.newRow now new).Alike R (t'.newRow now' new) :=
  ⟨h.nextId, rfl, rfl, rfl, rfl, rfl, rfl, hnow, hnow⟩

theorem insert (h : t.Alike R t') (hnow : R now now') (new : NewAccount) :
    (t.insert now new).Alike R (t'.insert now' new) :=
  ⟨List.rel_append h.accounts (.cons (h.newRow hnow new) .nil), h.log⟩

theorem checkVersion (h : t.Alike R t') (id : AccountId) (expected : Nat) :
    t.checkVersion id expected = t'.checkVersion id expected := by
  unfold Tables.checkVersion
  match t.account id, t'.account id, h.account id with
  | _, _, .ok hrow => simp only [hrow.version]
  | _, _, .error _ => rfl

theorem replace (h : t.Alike R t') (hrow : a.Alike R b) : (t.replace a).Alike R (t'.replace b) := by
  refine ⟨List.rel_map ?_ h.accounts, h.log⟩
  intro old old' hold
  simp only [hold.id, hrow.id]
  split
  · exact hrow
  · exact hold

theorem newEntry (h : t.Alike R t') (hnow : R now now') (new : NewTransaction) :
    (t.newEntry now new).Alike R (t'.newEntry now' new) :=
  ⟨congrArg (· + 1) h.log.length_eq, rfl, rfl, rfl, rfl, rfl, rfl, hnow⟩

theorem enter (h : t.Alike R t') (hnow : R now now') (new : NewTransaction) :
    (t.enter now new).Alike R (t'.enter now' new) :=
  ⟨h.accounts, List.rel_append h.log (.cons (h.newEntry hnow new) .nil)⟩

end Tables.Alike

theorem Filter.Alike.accepts {f f' : Filter} {a b : Transaction} (hR : KeepsOrder R)
    (hf : f.Alike R f') (hab : a.Alike R b) : f.accepts a = f'.accepts b := by
  have hsince : f.since.all (· ≤ a.createdAt) = f'.since.all (· ≤ b.createdAt) := by
    match f.since, f'.since, hf.since with
    | _, _, .none => rfl
    | _, _, .some htime => simp [hR _ _ _ _ htime hab.createdAt]
  have htill : f.till.all (a.createdAt ≤ ·) = f'.till.all (b.createdAt ≤ ·) := by
    match f.till, f'.till, hf.till with
    | _, _, .none => rfl
    | _, _, .some htime => simp [hR _ _ _ _ hab.createdAt htime]
  unfold Filter.accepts
  rw [hsince, htill, hab.user, hf.user, hab.kind, hf.kind, hab.amount, hf.least, hf.most]

theorem Transaction.Alike.precedes {a a' b b' : Transaction} (hR : KeepsOrder R)
    (h : a.Alike R b) (h' : a'.Alike R b') : Filter.precedes a a' = Filter.precedes b b' := by
  have hle : a.createdAt.rank ≤ a'.createdAt.rank ↔ b.createdAt.rank ≤ b'.createdAt.rank :=
    hR _ _ _ _ h.createdAt h'.createdAt
  have hge : a'.createdAt.rank ≤ a.createdAt.rank ↔ b'.createdAt.rank ≤ b.createdAt.rank :=
    hR _ _ _ _ h'.createdAt h.createdAt
  have hlt : a'.createdAt < a.createdAt ↔ b'.createdAt < b.createdAt := by
    show a'.createdAt.rank < a.createdAt.rank ↔ b'.createdAt.rank < b.createdAt.rank
    omega
  have heq : a.createdAt.rank = a'.createdAt.rank ↔ b.createdAt.rank = b'.createdAt.rank := by
    omega
  unfold Filter.precedes
  simp only [hlt, heq, h.id, h'.id]

theorem Filter.Alike.page? {f f' : Filter} {log log' : List Transaction} (hR : KeepsOrder R)
    (hf : f.Alike R f') (hlog : List.Forall₂ (Transaction.Alike R) log log') :
    List.Forall₂ (Transaction.Alike R) (f.page? log) (f'.page? log') := by
  have haccepted : List.Forall₂ (Transaction.Alike R) (log.filter f.accepts)
      (log'.filter f'.accepts) :=
    List.rel_filter (fun _ _ hab => by simp only [hf.accepts hR hab]) hlog
  have hfound := forall₂_mergeSort haccepted fun _ _ _ _ h h' => h.precedes hR h'
  have hoffset : f.offset = f'.offset := by rw [offset, offset, hf.page, hf.limit]
  have hpage := List.forall₂_drop f'.offset hfound
  simp only [Filter.page?, hoffset, hf.limit]
  split
  · exact hpage
  · exact List.forall₂_take _ hpage

end Ledger
