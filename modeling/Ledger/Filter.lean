import Ledger.Transaction

namespace Ledger

/-- A page of a user's transactions within inclusive bounds. Pages count from one; a limit of zero
stands for no limit in the store, and for the default page size in a ledger call. -/
structure Filter where
  user : UserId
  kind : Option TransactionKind
  since : Option Timestamp
  till : Option Timestamp
  least : Option Decimal
  most : Option Decimal
  page : Nat
  limit : Nat
deriving DecidableEq

namespace Filter

/-- Whether a transaction satisfies every bound. -/
def accepts (f : Filter) (t : Transaction) : Bool :=
  t.user = f.user && f.kind.all (t.kind = ·) &&
    f.since.all (· ≤ t.createdAt) && f.till.all (t.createdAt ≤ ·) &&
    f.least.all (· ≤ t.amount) && f.most.all (t.amount ≤ ·)

/-- The number of transactions on the pages before this one; page zero is read as page one. -/
def offset (f : Filter) : Nat :=
  (max f.page 1 - 1) * f.limit

/-- Newest first, the later entry first among equal times. -/
def precedes (a b : Transaction) : Bool :=
  b.createdAt < a.createdAt || (a.createdAt.rank = b.createdAt.rank && b.id ≤ a.id)

/-- The page of the log that the filter asks for. -/
def page? (f : Filter) (log : List Transaction) : List Transaction :=
  let found := ((log.filter f.accepts).mergeSort precedes).drop f.offset
  if f.limit = 0 then found else found.take f.limit

end Filter

end Ledger
