import Ledger.Proofs.Config.Validated
import Ledger.Proofs.Decimal.Value
import Ledger.Service

namespace Ledger

section Windows

variable {α : Type} (l : List α) (width : Nat)

/-- The elements of a list in the window with the given number, counted from zero. -/
def window (number : Nat) : List α :=
  (l.drop (number * width)).take width

theorem flatMap_window (count : Nat) :
    (List.range count).flatMap (window l width) = l.take (count * width) := by
  induction count with
  | zero => simp
  | succ count ih =>
      rw [List.range_succ, List.flatMap_append, ih, List.flatMap_singleton, window,
        Nat.succ_mul, List.take_add]

theorem length_window (number : Nat) :
    (window l width number).length = min width (l.length - number * width) := by
  rw [window, List.length_take, List.length_drop]

variable {l width}

theorem window_eq_nil_iff (hwidth : 0 < width) {number : Nat} :
    window l width number = [] ↔ l.length ≤ number * width := by
  rw [← List.length_eq_zero_iff, length_window]
  omega

theorem length_window_of_next (hwidth : 0 < width) {number : Nat}
    (hnext : window l width (number + 1) ≠ []) : (window l width number).length = width := by
  rw [Ne, window_eq_nil_iff hwidth, Nat.succ_mul] at hnext
  rw [length_window]
  omega

end Windows

theorem Config.pageLimit_pos (mode : PublishMode) (timeout : Option Duration)
    (defaultSize maxSize : Nat) (relay : RelayConfig) (requested : Nat) :
    0 < (validated mode timeout defaultSize maxSize relay).pageLimit requested := by
  have hdefault := defaultPageSize_pos mode timeout defaultSize maxSize relay
  have hmax := maxPageSize_pos mode timeout defaultSize maxSize relay
  exact one_le_pageLimit hdefault hmax requested

namespace Filter

variable {f : Filter} {log : List Transaction}

/-- Whether a transaction is the user's and lies within every bound that is given. -/
def Admits (f : Filter) (t : Transaction) : Prop :=
  t.user = f.user ∧ (∀ kind ∈ f.kind, t.kind = kind) ∧
    (∀ since ∈ f.since, since ≤ t.createdAt) ∧ (∀ till ∈ f.till, t.createdAt ≤ till) ∧
    (∀ least ∈ f.least, least.value ≤ t.amount.value) ∧
    ∀ most ∈ f.most, t.amount.value ≤ most.value

instance (f : Filter) (t : Transaction) : Decidable (f.Admits t) :=
  inferInstanceAs (Decidable (_ ∧ _))

/-- The order of a listing: newest first, and of two entries of the same time the one with the
larger id first. -/
def NewestFirst (a b : Transaction) : Prop :=
  b.createdAt ≤ a.createdAt ∧ (a.createdAt ≤ b.createdAt → b.id ≤ a.id)

/-- All that the filter asks for, in the order of the pages. -/
def listing (f : Filter) (log : List Transaction) : List Transaction :=
  (log.filter f.accepts).mergeSort precedes

theorem accepts_iff {t : Transaction} : f.accepts t = true ↔ f.Admits t := by
  simp only [accepts, Admits, Bool.and_eq_true, Option.all_eq_true, decide_eq_true_eq,
    Decimal.le_iff_value, Option.mem_def, and_assoc]

theorem precedes_iff {a b : Transaction} : precedes a b = true ↔ NewestFirst a b := by
  simp only [precedes, NewestFirst, Bool.or_eq_true, Bool.and_eq_true, decide_eq_true_eq]
  show a.createdAt.rank > b.createdAt.rank ∨ _ ↔
    b.createdAt.rank ≤ a.createdAt.rank ∧ (a.createdAt.rank ≤ b.createdAt.rank → _)
  constructor
  · rintro (hlater | ⟨hsame, hid⟩)
    · exact ⟨hlater.le, fun hle => absurd hle hlater.not_ge⟩
    · exact ⟨hsame.ge, fun _ => hid⟩
  · rintro ⟨hle, hid⟩
    rcases hle.lt_or_eq with hlt | hsame
    · exact .inl hlt
    · exact .inr ⟨hsame.symm, hid hsame.ge⟩

theorem listing_perm (f : Filter) (log : List Transaction) :
    (f.listing log).Perm (log.filter f.Admits) := by
  have hsame : log.filter f.accepts = log.filter f.Admits :=
    List.filter_congr fun t _ => Bool.eq_iff_iff.mpr (accepts_iff.trans decide_eq_true_iff.symm)
  rw [← hsame]
  exact List.mergeSort_perm _ _

theorem listing_sorted (f : Filter) (log : List Transaction) :
    (f.listing log).Pairwise NewestFirst := by
  have htrans : ∀ a b c : Transaction, precedes a b = true → precedes b c = true →
      precedes a c = true := by
    intro a b c hab hbc
    rw [precedes_iff] at hab hbc ⊢
    obtain ⟨hle, hid⟩ := hab
    obtain ⟨hle', hid'⟩ := hbc
    exact ⟨Int.le_trans hle' hle, fun h =>
      Nat.le_trans (hid' (Int.le_trans hle h)) (hid (Int.le_trans h hle'))⟩
  have htotal : ∀ a b : Transaction, (precedes a b || precedes b a) = true := by
    intro a b
    rw [Bool.or_eq_true, precedes_iff, precedes_iff]
    rcases Int.lt_trichotomy a.createdAt.rank b.createdAt.rank with hlt | hsame | hgt
    · exact .inr ⟨hlt.le, fun h => absurd h hlt.not_ge⟩
    · rcases Nat.le_total a.id b.id with hid | hid
      · exact .inr ⟨hsame.le, fun _ => hid⟩
      · exact .inl ⟨hsame.ge, fun _ => hid⟩
    · exact .inl ⟨hgt.le, fun h => absurd h hgt.not_ge⟩
  exact (List.pairwise_mergeSort htrans htotal _).imp precedes_iff.mp

theorem page?_eq_window (hlimit : 0 < f.limit) (log : List Transaction) :
    f.page? log = window (f.listing log) f.limit (f.page - 1) := by
  have hnumber : max f.page 1 - 1 = f.page - 1 := by omega
  simp only [page?, offset, if_neg hlimit.ne', hnumber]
  rfl

theorem offset_lt (hpage : f.page < 2 ^ 32) (hlimit : f.limit < 2 ^ 32) : f.offset < 2 ^ 64 := by
  have hpages : max f.page 1 - 1 < 2 ^ 32 := by omega
  exact (Nat.mul_lt_mul'' hpages hlimit).trans_eq (by norm_num)

/-- The pages of a query, each of at most `limit` entries, make up what it asks for. -/
structure Paged (f : Filter) (log : List Transaction) (limit : Nat)
    (pages : Nat → List Transaction) : Prop where
  limit_pos : 1 ≤ limit
  zero : pages 0 = pages 1
  length_le : ∀ page, (pages page).length ≤ limit
  full : ∀ page, pages (page + 2) ≠ [] → (pages (page + 1)).length = limit
  /-- A page is empty just when there is nothing left for it. -/
  empty_iff : ∀ page, pages (page + 1) = [] ↔ (log.filter f.Admits).length ≤ page * limit
  /-- The pages before an empty one are the entries that the filter admits, in order. -/
  complete : ∀ count, pages (count + 1) = [] →
    ((List.range count).flatMap fun index => pages (index + 1)).Perm (log.filter f.Admits)
  sorted : ∀ count,
    ((List.range count).flatMap fun index => pages (index + 1)).Pairwise NewestFirst

theorem paged_window (f : Filter) (log : List Transaction) {limit : Nat} (hlimit : 0 < limit) :
    f.Paged log limit fun page => window (f.listing log) limit (page - 1) where
  limit_pos := hlimit
  zero := rfl
  length_le page := by
    rw [length_window]
    exact Nat.min_le_left _ _
  full page hnext := length_window_of_next hlimit hnext
  empty_iff page := by
    rw [← (f.listing_perm log).length_eq]
    exact window_eq_nil_iff hlimit
  complete count hend := by
    have hall : (f.listing log).length ≤ count * limit := (window_eq_nil_iff hlimit).mp hend
    show ((List.range count).flatMap (window (f.listing log) limit)).Perm _
    rw [flatMap_window, List.take_of_length_le hall]
    exact f.listing_perm log
  sorted count := by
    show ((List.range count).flatMap (window (f.listing log) limit)).Pairwise _
    rw [flatMap_window]
    exact (f.listing_sorted log).sublist (List.take_sublist _ _)

end Filter

namespace Service

theorem call_transactions (s : Service) (now : Timestamp) (f : Filter)
    (hlimit : 0 < s.config.pageLimit f.limit) :
    (s.call now (.transactions f)).1.store.tables = s.store.tables ∧
      (s.call now (.transactions f)).2 = .ok (.transactions
        (window (f.listing s.store.tables.log) (s.config.pageLimit f.limit)
          (f.page - 1))) := by
  have hpage := Filter.page?_eq_window
    (f := { f with page := max f.page 1, limit := s.config.pageLimit f.limit }) hlimit
    s.store.tables.log
  have hnumber : max f.page 1 - 1 = f.page - 1 := by omega
  rw [hnumber] at hpage
  refine ⟨rfl, ?_⟩
  show Except.ok (Reply.transactions (Filter.page? _ _)) = _
  rw [hpage]
  rfl

/-- Whatever else becomes of a service between the queries, if only its log stays, the pages of a
query make up what it asks for; and the number of entries to skip fits 64 bits. -/
theorem pages_partition (f : Filter) (log : List Transaction) (services : Nat → Service)
    (times : Nat → Timestamp) {mode : PublishMode} {timeout : Option Duration}
    {defaultSize maxSize : Nat} {relay : RelayConfig}
    (hconfig : ∀ page,
      (services page).config = .validated mode timeout defaultSize maxSize relay)
    (hlog : ∀ page, (services page).store.tables.log = log) :
    (∃ pages : Nat → List Transaction,
      (∀ page,
        ((services page).call (times page) (.transactions { f with page })).1.store.tables =
            (services page).store.tables ∧
          ((services page).call (times page) (.transactions { f with page })).2 =
            .ok (.transactions (pages page))) ∧
      f.Paged log ((Config.validated mode timeout defaultSize maxSize relay).pageLimit f.limit)
        pages) ∧
    ∀ page limit, page < 2 ^ 32 → limit < 2 ^ 32 →
      ({ f with page, limit } : Filter).offset < 2 ^ 64 := by
  have hlimit := Config.pageLimit_pos mode timeout defaultSize maxSize relay f.limit
  constructor
  · refine ⟨_, fun page => ?_, f.paged_window log hlimit⟩
    have hcall := (services page).call_transactions (times page) { f with page }
      (by rw [hconfig]; exact hlimit)
    rw [hconfig, hlog] at hcall
    exact hcall
  · intro page limit hpage hlimit
    exact Filter.offset_lt hpage hlimit

/-- Three entries, two of them of the same time and the last one of an earlier time, in pages of
two. -/
theorem pages_partition_ties :
    let later : Timestamp := { Timestamp.epoch with year := 1971 }
    let log : List Transaction :=
      [⟨1, 7, none, 1, .cents 5, "first", .deposit, later⟩,
        ⟨2, 7, none, 1, .cents 5, "second", .deposit, later⟩,
        ⟨3, 7, none, 1, .cents 5, "third", .deposit, .epoch⟩]
    let f : Filter := ⟨7, some .deposit, none, some later, none, none, 1, 0⟩
    let s : Service :=
      { config := .validated .inline none 2 0 .standard
        store := { tables := { log } }
        relay := none }
    ∃ pages : Nat → List Transaction,
      (∀ page, (s.call .epoch (.transactions { f with page })).2 =
        .ok (.transactions (pages page))) ∧
      (pages 1).length = 2 ∧ pages 2 ≠ [] ∧ pages 3 = [] ∧
      ((List.range 2).flatMap fun index => pages (index + 1)).Perm log := by
  intro later log f s
  obtain ⟨⟨pages, hcalls, hpaged⟩, -⟩ :=
    pages_partition f log (fun _ => s) (fun _ => .epoch) (fun _ => rfl) (fun _ => rfl)
  have hadmits : log.filter f.Admits = log := by decide
  have hlimit : s.config.pageLimit f.limit = 2 := by decide
  have hmore : pages 2 ≠ [] := by
    rw [Ne, hpaged.empty_iff, hadmits]
    decide
  have hend : pages 3 = [] := by
    rw [hpaged.empty_iff, hadmits]
    decide
  refine ⟨pages, fun page => (hcalls page).2, (hpaged.full 0 hmore).trans hlimit, hmore, hend, ?_⟩
  rw [← hadmits]
  exact hpaged.complete 2 hend

end Service

end Ledger
