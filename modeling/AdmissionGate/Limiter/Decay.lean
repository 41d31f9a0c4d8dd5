/-!
Scores that go down with time, never below their baseline. The rule is the same
for every kind of number, so it can be run on floating-point numbers and be
reasoned about on exact ones.
-/

namespace AdmissionGate

/-- A score after some quiet seconds. What is no number counts as the baseline. -/
def decayed {α : Type} [Sub α] [Mul α] [LT α] [DecidableLT α] [BEq α]
    (baseline rate seconds score : α) : α :=
  let left := score - rate * seconds
  if left < baseline || !(left == left) then baseline else left

end AdmissionGate
