import Ledger.Call.Basic

namespace Ledger.Work

/-- Locks two rows in ascending order of their ids, whichever of them is asked for first. -/
def lockPair {α : Type} (source destination : AccountId) (next : Account → Account → Work α) :
    Work α :=
  if source < destination then
    ask (.lock source) fun debited => ask (.lock destination) fun credited => next debited credited
  else
    ask (.lock destination) fun credited => ask (.lock source) fun debited => next debited credited

/-- Moves the amount between two rows under their locks. -/
def stageTransfer (r : TransferRequest) (amount : Decimal) : Work Unit :=
  lockPair r.source r.destination fun source destination =>
    if source.status ≠ .active then refuse (.accountClosed source.id)
    else if source.balance < amount then
      refuse (.insufficientFunds source.id source.balance amount)
    else if destination.status ≠ .active then refuse (.accountClosed destination.id)
    else
      match source.balance.sub? amount with
      | none => refuse (.invalidRequest "source balance would underflow")
      | some debited =>
          match Currency.credit? destination.balance amount with
          | none => refuse (.invalidRequest "destination balance would overflow")
          | some credited =>
              ask (.save { source with balance := debited }) fun _ =>
                ask (.save { destination with balance := credited }) fun _ =>
                  ask
                    (.append
                      { user := r.user
                        source := some source.id
                        destination := destination.id
                        amount
                        description := r.description
                        kind := r.kind.entry })
                    fun _ => succeed ()

/-- Moves money between two accounts of one currency. -/
def transfer (r : TransferRequest) : Work Transaction :=
  ask (.ownedAccount r.user r.source) fun source =>
    findDestination fun destination =>
      if source.currency ≠ destination.currency then
        refuse (.invalidRequest
          s!"currency mismatch: {source.currency} to {destination.currency}")
      else
        match Currency.scale? r.amount source.currency with
        | none =>
            refuse (.invalidRequest
              (s!"amount {r.amount.toText} is not representable at the " ++
                s!"{source.currency} minor unit"))
        | some amount =>
            inUnit (stageTransfer r amount) fun _ => commitEntry fun _ entry => succeed entry
where
  /-- The row to credit: an internal transfer sees the caller's own accounts only. -/
  findDestination (next : Account → Work Transaction) : Work Transaction :=
    match r.kind with
    | .internal => ask (.ownedAccount r.user r.destination) next
    | .external => ask (.account r.destination) next

end Ledger.Work
