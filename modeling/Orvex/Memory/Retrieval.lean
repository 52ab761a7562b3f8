import Orvex.Core.Python

/-!
# What a trajectory shows

The events of a trajectory are scanned once for the first untrusted event and
for the changes of the recipient and of the amount.
-/

namespace Orvex
namespace Retrieval

structure TrajectoryInsights where
  untrustedEventIds : List PyValue
  recipientChangeAfterUntrusted : Bool
  amountChangeAfterUntrusted : Bool
  firstUntrustedSequence : PyValue
  proposalSequence : PyValue

/-- The variables of the loop. -/
structure Scan where
  untrustedIds : List PyValue
  firstUntrusted : PyValue
  proposal : PyValue
  recipientChange : PyValue
  amountChange : PyValue

def Scan.initial : Scan := ⟨[], .none, .none, .none, .none⟩

/-- A variable after an assignment that is made once. -/
def assignOnce (held value : PyValue) : PyValue :=
  if held.isNone then value else held

def Scan.step (scan : Scan) (event : PyDict) : Except PyException Scan := do
  let seq := event.get "sequence"
  let trust := (← event.getDict "trust_context").get "trust_level"
  let etype := event.get "event_type"
  let untrusted := trust.isText "UNTRUSTED"
  return {
    untrustedIds :=
      if untrusted then scan.untrustedIds ++ [event.get "event_id"]
      else scan.untrustedIds
    firstUntrusted :=
      if untrusted then assignOnce scan.firstUntrusted seq
      else scan.firstUntrusted
    recipientChange :=
      if etype.isText "RECIPIENT_CHANGE" then
        assignOnce scan.recipientChange seq
      else scan.recipientChange
    amountChange :=
      if etype.isText "AMOUNT_CHANGE" then assignOnce scan.amountChange seq
      else scan.amountChange
    proposal :=
      if etype.isText "PROPOSAL_CREATED" then seq else scan.proposal }

/-- `_after(change_seq)`. -/
def after (py : Python) (scan : Scan) (change : PyValue) :
    Except PyException Bool :=
  if change.isNone || scan.firstUntrusted.isNone then .ok false
  else
    match py.ge change scan.firstUntrusted with
    | some b => .ok b
    | none => .error .typeError

def analyzeTrajectory (py : Python) (events : List PyDict) :
    Except PyException TrajectoryInsights := do
  let scan ← events.foldlM Scan.step Scan.initial
  let recipientChanged ← after py scan scan.recipientChange
  let amountChanged ← after py scan scan.amountChange
  return {
    untrustedEventIds := scan.untrustedIds
    recipientChangeAfterUntrusted := recipientChanged
    amountChangeAfterUntrusted := amountChanged
    firstUntrustedSequence := scan.firstUntrusted
    proposalSequence := scan.proposal }

end Retrieval
end Orvex
