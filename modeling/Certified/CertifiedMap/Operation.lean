import Certified.CertifiedMap.Basic

/-!
Histories of a certified map: what can be done to it, what each step answers, and where a sequence of
steps leads.
-/

namespace Certified.CertifiedMap

inductive Operation where
  | insert (key : Label) (value : Bytes)
  | insertPayload (key : Label) (payload : Bytes)
  | erase (key : Label)
  /-- Starts over with these entries. -/
  | replace (entries : List Entry)
deriving DecidableEq

def apply (m : CertifiedMap) : Operation → CertifiedMap
  | .insert key value => m.insert key value
  | .insertPayload key payload => m.insertPayload key payload
  | .erase key => m.erase key
  | .replace entries => ofList entries

/-- What an operation answers: the value that it takes out of the map or, for a payload, the digest
that it puts in. -/
def answer? (m : CertifiedMap) : Operation → Option Bytes
  | .insert key _ => m.get? key
  | .insertPayload _ payload => some (Digest.sha256 payload).bytes
  | .erase key => m.get? key
  | .replace _ => none

/-- The map after a history that starts with the empty map. -/
def run (history : List Operation) : CertifiedMap :=
  history.foldl apply empty

@[simp] theorem run_nil : run [] = empty := rfl

@[simp] theorem run_append_singleton (history : List Operation) (last : Operation) :
    run (history ++ [last]) = (run history).apply last := by
  simp [run]

end Certified.CertifiedMap
