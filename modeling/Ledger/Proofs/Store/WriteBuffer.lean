import Ledger.Proofs.Store.History

namespace Ledger

/-- What can come of a unit of work that is begun at any store. Between its calls, others do to the
store what they like, short of taking rows away. -/
inductive Course (u : UnitId) : History → Store → Prop
  | begin {s s' : Store} {now : Timestamp} (hbegin : s.perform u now .begin = some (s', .ok ())) :
      Course u [] s'
  | others {h : History} {s s' : Store} (hcourse : Course u h s) (hunit : s'.unit u = s.unit u)
      (hrows : ∀ id, (s.tables.find? id).isSome = true → (s'.tables.find? id).isSome = true) :
      Course u h s'
  | call {h : History} {s s' : Store} {now : Timestamp} {c : StoreCall} {a : c.Answer}
      (hcourse : Course u h s) (hown : c.isOwn = true)
      (hperform : s.perform u now c = some (s', a)) : Course u (⟨c, a⟩ :: h) s'

namespace Course

variable {s s' : Store} {u : UnitId} {h : History} {now : Timestamp} {id : AccountId}
  {committed : Committed}

end Course

end Ledger
