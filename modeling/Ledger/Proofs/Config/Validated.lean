import Ledger.Config

namespace Ledger

namespace RelayConfig

/-- An event gets at least one attempt, and the largest backoff is not below the first. -/
structure WellFormed (c : RelayConfig) : Prop where
  attempts : 1 ≤ c.maxAttempts
  backoffs : c.initialBackoff ≤ c.maxBackoff

variable {maxAttempts : Nat} {initialBackoff maxBackoff : Duration}

theorem maxAttempts_validated (h : 1 ≤ maxAttempts) :
    (validated maxAttempts initialBackoff maxBackoff).maxAttempts = maxAttempts :=
  if_neg (Nat.ne_of_gt h)

theorem maxBackoff_validated (h : initialBackoff ≤ maxBackoff) :
    (validated maxAttempts initialBackoff maxBackoff).maxBackoff = maxBackoff :=
  if_neg (Nat.not_lt.mpr h)

theorem wellFormed_validated (maxAttempts : Nat) (initialBackoff maxBackoff : Duration) :
    (validated maxAttempts initialBackoff maxBackoff).WellFormed where
  attempts := by
    simp only [validated]
    split
    · decide
    · omega
  backoffs := by
    simp only [validated]
    split
    · exact Nat.le_refl _
    · rename_i hbackoffs
      exact Nat.not_lt.mp hbackoffs

theorem validated_eq {c : RelayConfig} (h : c.WellFormed) :
    validated c.maxAttempts c.initialBackoff c.maxBackoff = c :=
  RelayConfig.ext (maxAttempts_validated h.attempts) rfl (maxBackoff_validated h.backoffs)

end RelayConfig

namespace Config

/-- No page is empty or larger than the largest, the time budget is not zero, and the relay is
well-formed. -/
structure WellFormed (c : Config) : Prop where
  page_pos : 1 ≤ c.defaultPageSize
  page_le : c.defaultPageSize ≤ c.maxPageSize
  timeout : c.timeout ≠ some .zero
  relay : c.relay.WellFormed

/-- All settings put through the checks. -/
def checked (c : Config) : Config :=
  validated c.publishMode c.timeout c.defaultPageSize c.maxPageSize
    (.validated c.relay.maxAttempts c.relay.initialBackoff c.relay.maxBackoff)

/-- What the checks make of given settings. -/
structure Repairs (given c : Config) : Prop where
  wellFormed : c.WellFormed
  /-- A setting that is right is left alone, whatever the others are. -/
  publishMode : c.publishMode = given.publishMode
  timeout : given.timeout ≠ some .zero → c.timeout = given.timeout
  maxPageSize : 1 ≤ given.maxPageSize → c.maxPageSize = given.maxPageSize
  defaultPageSize : 1 ≤ given.defaultPageSize → given.defaultPageSize ≤ c.maxPageSize →
    c.defaultPageSize = given.defaultPageSize
  maxAttempts : 1 ≤ given.relay.maxAttempts → c.relay.maxAttempts = given.relay.maxAttempts
  initialBackoff : c.relay.initialBackoff = given.relay.initialBackoff
  maxBackoff : given.relay.initialBackoff ≤ given.relay.maxBackoff →
    c.relay.maxBackoff = given.relay.maxBackoff
  /-- Exactly the well-formed settings come out as they went in. -/
  unchanged : c = given ↔ given.WellFormed
  /-- A second check changes nothing. -/
  again : c.checked = c
  /-- Every query gets a page that is not empty and not larger than the largest, a larger one if it
  asks for more, and the one that it asks for if there is such a page. -/
  limit_pos : ∀ requested, 1 ≤ c.pageLimit requested
  limit_le : ∀ requested, c.pageLimit requested ≤ c.maxPageSize
  limit_mono : ∀ requested larger, 1 ≤ requested → requested ≤ larger →
    c.pageLimit requested ≤ c.pageLimit larger
  limit_eq : ∀ requested, 1 ≤ requested → requested ≤ c.maxPageSize →
    c.pageLimit requested = requested

variable {mode : PublishMode} {timeout : Option Duration} {defaultSize maxSize : Nat}
  {relay : RelayConfig} {c : Config}

theorem timeout_validated (h : timeout ≠ some .zero) :
    (validated mode timeout defaultSize maxSize relay).timeout = timeout := by
  cases timeout with
  | none => rfl
  | some d =>
      have hkeep : decide (d ≠ .zero) = true := by simpa using h
      simp only [validated, Option.filter_some, hkeep, if_true]

theorem maxPageSize_validated (h : 1 ≤ maxSize) :
    (validated mode timeout defaultSize maxSize relay).maxPageSize = maxSize :=
  if_neg (Nat.ne_of_gt h)

theorem maxPageSize_pos (mode : PublishMode) (timeout : Option Duration)
    (defaultSize maxSize : Nat) (relay : RelayConfig) :
    1 ≤ (validated mode timeout defaultSize maxSize relay).maxPageSize := by
  simp only [validated]
  split
  · decide
  · omega

theorem defaultPageSize_eq (mode : PublishMode) (timeout : Option Duration)
    (defaultSize maxSize : Nat) (relay : RelayConfig) :
    (validated mode timeout defaultSize maxSize relay).defaultPageSize =
      min (if defaultSize = 0 then standard.defaultPageSize else defaultSize)
        (validated mode timeout defaultSize maxSize relay).maxPageSize := by
  simp only [validated]
  split <;> rfl

theorem defaultPageSize_validated (hpos : 1 ≤ defaultSize)
    (hle : defaultSize ≤ (validated mode timeout defaultSize maxSize relay).maxPageSize) :
    (validated mode timeout defaultSize maxSize relay).defaultPageSize = defaultSize := by
  rw [defaultPageSize_eq, if_neg (Nat.ne_of_gt hpos), Nat.min_eq_left hle]

theorem defaultPageSize_pos (mode : PublishMode) (timeout : Option Duration)
    (defaultSize maxSize : Nat) (relay : RelayConfig) :
    1 ≤ (validated mode timeout defaultSize maxSize relay).defaultPageSize := by
  have hstandard : 1 ≤ standard.defaultPageSize := by decide
  have hmax := maxPageSize_pos mode timeout defaultSize maxSize relay
  rw [defaultPageSize_eq]
  split <;> omega

theorem wellFormed_validated (mode : PublishMode) (timeout : Option Duration)
    (defaultSize maxSize : Nat) (hrelay : relay.WellFormed) :
    (validated mode timeout defaultSize maxSize relay).WellFormed where
  page_pos := defaultPageSize_pos _ _ _ _ _
  page_le := by
    rw [defaultPageSize_eq]
    exact Nat.min_le_right _ _
  timeout := by
    intro hzero
    obtain ⟨-, hnot⟩ := Option.filter_eq_some_iff.mp hzero
    simp at hnot
  relay := hrelay

theorem wellFormed_checked (c : Config) : c.checked.WellFormed :=
  wellFormed_validated _ _ _ _ (RelayConfig.wellFormed_validated _ _ _)

theorem checked_eq (h : c.WellFormed) : c.checked = c := by
  have hmax : 1 ≤ c.maxPageSize := Nat.le_trans h.page_pos h.page_le
  rw [checked, RelayConfig.validated_eq h.relay]
  refine Config.ext rfl (timeout_validated h.timeout) ?_ (maxPageSize_validated hmax) rfl
  apply defaultPageSize_validated h.page_pos
  rw [maxPageSize_validated hmax]
  exact h.page_le

theorem pageLimit_of_pos {requested : Nat} (h : 1 ≤ requested) :
    c.pageLimit requested = min requested c.maxPageSize :=
  if_neg (Nat.ne_of_gt h)

theorem one_le_pageLimit (hdefault : 1 ≤ c.defaultPageSize) (hmax : 1 ≤ c.maxPageSize)
    (requested : Nat) : 1 ≤ c.pageLimit requested := by
  simp only [pageLimit]
  split <;> omega

theorem WellFormed.pageLimit_le (h : c.WellFormed) (requested : Nat) :
    c.pageLimit requested ≤ c.maxPageSize := by
  have hle := h.page_le
  simp only [pageLimit]
  split <;> omega

/-- The checks repair what is wrong, leave alone what is right, and are done at once; queries then
get pages of sizes that make sense. -/
theorem validated_repairs (mode : PublishMode) (timeout : Option Duration)
    (defaultSize maxSize maxAttempts : Nat) (initialBackoff maxBackoff : Duration) :
    Repairs ⟨mode, timeout, defaultSize, maxSize, ⟨maxAttempts, initialBackoff, maxBackoff⟩⟩
      (validated mode timeout defaultSize maxSize
        (.validated maxAttempts initialBackoff maxBackoff)) := by
  have hconfig := wellFormed_checked
    ⟨mode, timeout, defaultSize, maxSize, ⟨maxAttempts, initialBackoff, maxBackoff⟩⟩
  exact
    { wellFormed := hconfig
      publishMode := rfl
      timeout := timeout_validated
      maxPageSize := maxPageSize_validated
      defaultPageSize := defaultPageSize_validated
      maxAttempts := RelayConfig.maxAttempts_validated
      initialBackoff := rfl
      maxBackoff := RelayConfig.maxBackoff_validated
      unchanged := ⟨fun heq => heq ▸ hconfig, checked_eq⟩
      again := checked_eq hconfig
      limit_pos := one_le_pageLimit hconfig.page_pos (maxPageSize_pos _ _ _ _ _)
      limit_le := hconfig.pageLimit_le
      limit_mono := by
        intro requested larger hpos hle
        rw [pageLimit_of_pos hpos, pageLimit_of_pos (Nat.le_trans hpos hle)]
        omega
      limit_eq := by
        intro requested hpos hle
        rw [pageLimit_of_pos hpos, Nat.min_eq_left hle] }

end Config

end Ledger
