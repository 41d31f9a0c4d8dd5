import AdmissionGate.Detection.Engine

/-!
An engine that answers by a script: the first rule for the host decides, and
where no rule is for it, one answer serves all.
-/

namespace AdmissionGate

structure ScriptedAnswer where
  opinion : Opinion
  delay : Duration := 0

structure Script where
  /-- Answers for hosts, which must be spelled exactly like this. -/
  rules : List (String × ScriptedAnswer) := []
  otherwise : ScriptedAnswer

namespace Script

def answerFor (s : Script) (host : String) : ScriptedAnswer :=
  ((s.rules.find? (·.1 = host)).map (·.2)).getD s.otherwise

def engine (s : Script) : Engine where
  name := "scripted"
  classify _ h :=
    let a := s.answerFor h.host
    { answer := some (a.delay, a.opinion) }

end Script

end AdmissionGate
