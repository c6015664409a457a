import Certified.Principal
import Certified.Proofs.Base32

/-!
The text of a principal stands for the principal, and no other text does: whatever else a text spells, it is
refused with the reason why it is no text of a principal.
-/

namespace Certified

/-- Grouping only adds dashes. -/
theorem filter_dashed {chars : List Char} (plain : ∀ c ∈ chars, c ≠ '-') (room : Nat) :
    (dashed room chars).filter (· ≠ '-') = chars := by
  induction chars generalizing room with
  | nil => cases room <;> rfl
  | cons c chars ih =>
    obtain ⟨first, rest⟩ := List.forall_mem_cons.mp plain
    cases room with
    | zero =>
      rw [dashed, List.filter_cons_of_neg (by decide), List.filter_cons_of_pos (by simpa using first),
        ih rest]
    | succ room => rw [dashed, List.filter_cons_of_pos (by simpa using first), ih rest]

namespace Principal

theorem ofBytes_bytes (p : Principal) : ofBytes p.bytes = .ok p :=
  dif_pos p.length_le

theorem toLower_symbol_ne_dash : ∀ n < 32, (Base32.symbol n).toLower ≠ '-' := by
  decide

theorem toUpper_toLower_symbol : ∀ n < 32, (Base32.symbol n).toLower.toUpper = Base32.symbol n := by
  decide

/-- What a text spells: dashes are dropped, and case does not matter. -/
def spelling (text : String) : List Char :=
  (text.toList.filter (· ≠ '-')).map Char.toUpper

theorem spelling_toText (p : Principal) :
    spelling p.toText = Base32.encode (Crc32.checksumBytes p.bytes ++ p.bytes) := by
  have plain : ∀ c ∈ (Base32.encode (Crc32.checksumBytes p.bytes ++ p.bytes)).map Char.toLower,
      c ≠ '-' := by
    intro c mem
    obtain ⟨s, held, rfl⟩ := List.mem_map.mp mem
    obtain ⟨n, small, rfl⟩ := Base32.exists_symbol_of_mem_encode held
    exact toLower_symbol_ne_dash n small
  rw [spelling, toText, String.toList_ofList, filter_dashed plain, List.map_map]
  rw [List.map_congr_left (g := id) ?_, List.map_id]
  intro s held
  obtain ⟨n, small, rfl⟩ := Base32.exists_symbol_of_mem_encode held
  exact toUpper_toLower_symbol n small

theorem ofText_eq (text : String) :
    ofText text = (do
      let bytes ← (Base32.decode (Bytes.ofText (String.ofList (spelling text)))).mapError .base32
      if bytes.length < 4 then .error .missingChecksum
      let p ← ofBytes (bytes.drop 4)
      if bytes.take 4 ≠ Crc32.checksumBytes p.bytes then .error .checksumMismatch
      if p.toText ≠ text then .error (.notCanonical text)
      return p) := rfl

/-- Of the bytes that a text spells the first four are the checksum of the others. -/
theorem ofText_of_spelled {text : String} {checksum body : Bytes} (four : checksum.length = 4)
    (spelled : spelling text = Base32.encode (checksum ++ body)) :
    ofText text = (do
      let p ← ofBytes body
      if checksum ≠ Crc32.checksumBytes p.bytes then .error .checksumMismatch
      if p.toText ≠ text then .error (.notCanonical text)
      return p) := by
  have long : ¬ (checksum ++ body).length < 4 := by
    rw [List.length_append]
    omega
  simp only [ofText_eq, Base32.decode_eq_ok_iff.mpr spelled, mapError_ok, ok_bind, long, if_false,
    List.drop_left' four, List.take_left' four, pure_eq_ok]

theorem length_checksumBytes (bytes : Bytes) : (Crc32.checksumBytes bytes).length = 4 :=
  Bytes.length_ofNatBE 4 _

/-- The text of a principal is accepted, and stands for the principal. -/
theorem ofText_toText (p : Principal) : ofText p.toText = .ok p := by
  rw [ofText_of_spelled (length_checksumBytes p.bytes) (spelling_toText p), ofBytes_bytes, ok_bind,
    if_neg (not_not.mpr rfl), if_neg (not_not.mpr rfl)]
  rfl

/-- Why a text is refused. It spells no bytes, or too few for a checksum, or too many for a principal, or it
has the checksum of other bytes, or it spells a principal in another way than the principal's own text. -/
inductive Refused (text : String) : PrincipalError → Prop where
  | base32 {cause : Base32.DecodeError}
    (unreadable : Base32.decode (Bytes.ofText (String.ofList (spelling text))) = .error cause) :
    Refused text (.base32 cause)
  | missingChecksum {bytes : Bytes} (spelled : spelling text = Base32.encode bytes)
    (short : bytes.length < 4) : Refused text .missingChecksum
  | tooLong {checksum body : Bytes} (four : checksum.length = 4)
    (spelled : spelling text = Base32.encode (checksum ++ body)) (long : 29 < body.length) :
    Refused text (.tooLong body.length)
  | checksumMismatch {checksum : Bytes} {p : Principal} (four : checksum.length = 4)
    (spelled : spelling text = Base32.encode (checksum ++ p.bytes))
    (other : checksum ≠ Crc32.checksumBytes p.bytes) : Refused text .checksumMismatch
  | notCanonical {p : Principal} (spelled : spelling text = spelling p.toText) (other : text ≠ p.toText) :
    Refused text (.notCanonical text)

theorem Refused.ofText_eq {text : String} {e : PrincipalError} (h : Refused text e) :
    ofText text = .error e := by
  cases h with
  | base32 unreadable =>
    rw [Principal.ofText_eq, unreadable]
    rfl
  | missingChecksum spelled short =>
    rw [Principal.ofText_eq, Base32.decode_eq_ok_iff.mpr spelled, mapError_ok, ok_bind, if_pos short]
    rfl
  | tooLong four spelled long =>
    rw [ofText_of_spelled four spelled, ofBytes, dif_neg (Nat.not_le.mpr long)]
    rfl
  | @checksumMismatch checksum p four spelled other =>
    rw [ofText_of_spelled four spelled, ofBytes_bytes, ok_bind, if_pos other]
    rfl
  | @notCanonical p spelled other =>
    rw [spelling_toText] at spelled
    rw [ofText_of_spelled (length_checksumBytes p.bytes) spelled, ofBytes_bytes, ok_bind,
      if_neg (not_not.mpr rfl), if_pos (Ne.symm other)]
    rfl

/-- Every text is that of a principal, or it is refused. -/
theorem exists_toText_or_refused (text : String) :
    (∃ p : Principal, text = p.toText) ∨ ∃ e, Refused text e := by
  cases read : Base32.decode (Bytes.ofText (String.ofList (spelling text))) with
  | error cause => exact .inr ⟨_, .base32 read⟩
  | ok bytes =>
    have spelled := Base32.decode_eq_ok_iff.mp read
    by_cases short : bytes.length < 4
    · exact .inr ⟨_, .missingChecksum spelled short⟩
    have four : (bytes.take 4).length = 4 := List.length_take_of_le (Nat.not_lt.mp short)
    rw [← List.take_append_drop 4 bytes] at spelled
    by_cases fits : (bytes.drop 4).length ≤ 29
    · let p : Principal := ⟨bytes.drop 4, fits⟩
      by_cases checksum : bytes.take 4 = Crc32.checksumBytes p.bytes
      · rw [checksum, ← spelling_toText p] at spelled
        by_cases same : text = p.toText
        · exact .inl ⟨p, same⟩
        · exact .inr ⟨_, .notCanonical spelled same⟩
      · exact .inr ⟨_, .checksumMismatch (p := p) four spelled checksum⟩
    · exact .inr ⟨_, .tooLong four spelled (Nat.not_le.mp fits)⟩

theorem ofText_eq_ok_iff {text : String} {p : Principal} : ofText text = .ok p ↔ text = p.toText := by
  constructor
  · intro h
    rcases exists_toText_or_refused text with ⟨q, own⟩ | ⟨e, refused⟩
    · rw [own, ofText_toText] at h
      cases h
      exact own
    · rw [refused.ofText_eq] at h
      cases h
  · intro own
    rw [own, ofText_toText]

theorem ofText_eq_error_iff {text : String} {e : PrincipalError} :
    ofText text = .error e ↔ Refused text e := by
  refine ⟨?_, Refused.ofText_eq⟩
  intro h
  rcases exists_toText_or_refused text with ⟨p, own⟩ | ⟨other, refused⟩
  · rw [own, ofText_toText] at h
    cases h
  · rw [refused.ofText_eq] at h
    cases h
    exact refused

/-- A text is accepted as a principal exactly if it is the principal's own text. Every other text is refused,
for one reason. -/
theorem text_bijection (text : String) :
    (∀ p, ofText text = .ok p ↔ text = p.toText) ∧
    (∀ e, ofText text = .error e ↔ Refused text e) ∧
    ((∀ p : Principal, text ≠ p.toText) ↔ ∃ e, Refused text e) := by
  refine ⟨fun p => ofText_eq_ok_iff, fun e => ofText_eq_error_iff, ?_⟩
  constructor
  · intro foreign
    apply (exists_toText_or_refused text).resolve_left
    rintro ⟨p, own⟩
    exact foreign p own
  · rintro ⟨e, refused⟩ p own
    have accepted : ofText text = .ok p := ofText_eq_ok_iff.mpr own
    rw [refused.ofText_eq] at accepted
    cases accepted

/-- The management canister's text, and the same symbols in the other case. -/
theorem text_bijection_sample :
    ofText "aaaaa-aa" = .ok management ∧ Refused "AAAAA-AA" (.notCanonical "AAAAA-AA") ∧
    ∀ p : Principal, "AAAAA-AA" ≠ p.toText := by
  have own : management.toText = "aaaaa-aa" := by decide +kernel
  have spelled : spelling "AAAAA-AA" = spelling management.toText := by decide +kernel
  have other : "AAAAA-AA" ≠ management.toText := by
    rw [own]
    decide
  obtain ⟨accepted, _, _⟩ := text_bijection "aaaaa-aa"
  obtain ⟨_, _, foreign⟩ := text_bijection "AAAAA-AA"
  have upper : Refused "AAAAA-AA" (.notCanonical "AAAAA-AA") := .notCanonical spelled other
  exact ⟨(accepted management).mpr own.symm, upper, foreign.mpr ⟨_, upper⟩⟩

end Principal
end Certified
