import Ledger.Call.Account
import Ledger.Call.Transfer

namespace Ledger.Request

/-- The store work of a request, once its arguments have passed the checks that need no store. -/
def work (config : Config) : Request → Except LedgerError (Work Reply)
  | openAccount user product currency =>
      (NewAccount.ofInput user product currency).map fun new =>
        reply (Work.openAccount new) .opened
  | deposit user id amount =>
      if amount ≤ 0 then .error (.invalidAmount amount "must be positive")
      else .ok (reply (Work.deposit user id amount) fun (row, entry) => .deposited row entry)
  | transfer r =>
      if r.amount ≤ 0 then .error (.invalidRequest "amount must be positive")
      else if r.source = r.destination then
        .error (.invalidRequest "cannot transfer to the same account")
      else .ok (reply (Work.transfer r) .transferred)
  | close user id => .ok (reply (Work.close user id) .closed)
  | accounts user => .ok (Work.ask (.accountsOf user) fun rows => Work.succeed (.accounts rows))
  | account user id => .ok (Work.ask (.ownedAccount user id) fun row => Work.succeed (.account row))
  | transactions filter =>
      let filter :=
        { filter with page := max filter.page 1, limit := config.pageLimit filter.limit }
      .ok (Work.ask (.query filter) fun entries => Work.succeed (.transactions entries))
  | transaction id =>
      .ok (Work.ask (.transaction id) fun entry => Work.succeed (.transaction entry))
where
  /-- Puts the result of a piece of work into a reply. -/
  reply {α : Type} (work : Work α) (f : α → Reply) : Work Reply :=
    work.bind fun result => .done (result.map f)

end Ledger.Request
