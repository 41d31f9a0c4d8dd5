import AdmissionGate.Text.Digits

/-!
What a sweep of the gate's stores removed.
-/

namespace AdmissionGate

structure SweepReport where
  expiredBlocks : Nat := 0
  idleEntries : Nat := 0
  staleAddresses : Nat := 0
deriving DecidableEq

namespace SweepReport

def text (r : SweepReport) : String :=
  "SweepReport \x7b expired_blocks: " ++ Digits.decimal r.expiredBlocks ++ ", idle_entries: " ++
    Digits.decimal r.idleEntries ++ ", stale_addresses: " ++ Digits.decimal r.staleAddresses ++
    " \x7d"

end SweepReport

end AdmissionGate
