import Rumour.Text.Utf8

set_option autoImplicit false

/-!
Bytes that are text and bytes that are not. What is decoded was encoded, so bytes are decoded just when they
are the bytes of a text. Decoding that fails tells the longest text that they begin with.
-/

namespace Rumour.Text.Utf8

/-- The longest text that some bytes begin with, by its length. -/
structure LongestText (bytes : List UInt8) (sound : Nat) : Prop where
  text : ∃ text, encode text <+: bytes ∧ (encode text).length = sound
  longest : ∀ text, encode text <+: bytes → (encode text).length ≤ sound

theorem encode_cons (character : Char) (text : List Char) :
    encode (character :: text) = encodeChar character ++ encode text := rfl

/-- Text of one byte for each character is cut between characters. -/
theorem encode_take {text : List Char} (ascii : ∀ character ∈ text, character.toNat < 0x80) (count : Nat) :
    encode (text.take count) = (encode text).take count := by
  induction text generalizing count with
  | nil => simp [encode]
  | cons character rest ih =>
      obtain ⟨small, others⟩ := List.forall_mem_cons.1 ascii
      have one : encodeChar character = [UInt8.ofNat character.toNat] := if_pos small
      cases count with
      | zero => rfl
      | succ count =>
          rw [List.take_succ_cons, encode_cons, encode_cons, one, ih others]
          rfl

/-! Single characters -/

theorem sixBits?_eq_some {byte : UInt8} {bits : Nat} (shown : sixBits? byte = some bits) :
    bits < 0x40 ∧ ∀ code, code % 0x40 = bits → continuation code = byte := by
  unfold sixBits? at shown
  split at shown
  next within =>
    simp only [Bool.and_eq_true, decide_eq_true_eq] at within
    have value : byte.toNat - 0x80 = bits := Option.some.inj shown
    refine ⟨by omega, fun code low => UInt8.toNat_inj.1 ?_⟩
    rw [continuation, UInt8.toNat_ofNat']
    omega
  next => cases shown

theorem charOfCode?_eq_some {least code : Nat} {character : Char}
    (shown : charOfCode? least code = some character) : least ≤ code ∧ character.toNat = code := by
  unfold charOfCode? at shown
  split at shown
  next within =>
    simp only [Bool.and_eq_true, decide_eq_true_eq] at within
    cases shown
    refine ⟨within.1, ?_⟩
    rw [Char.ofNat, dif_pos within.2]
    rfl
  next => cases shown

theorem ofNat_eq {code : Nat} (byte : UInt8) (same : code = byte.toNat) : UInt8.ofNat code = byte := by
  rw [same, UInt8.ofNat_toNat]

/-- A decoded character is written with the bytes that it was decoded from. -/
theorem encodeChar_of_decodeChar? {lead : UInt8} {rest : List UInt8} {character : Char} {used : Nat}
    (decoded : decodeChar? lead rest = some (character, used)) :
    encodeChar character = lead :: rest.take used := by
  have small : lead.toNat < 0x100 := lead.toNat_lt
  -- Sequences of one to four bytes apart, by their first byte.
  unfold decodeChar? at decoded
  simp only at decoded
  split at decoded
  next one =>
    cases decoded
    have code : (Char.ofNat lead.toNat).toNat = lead.toNat := by
      have valid : lead.toNat.isValidChar := Or.inl (by omega)
      rw [Char.ofNat, dif_pos valid]
      rfl
    rw [encodeChar, code]
    simp [one]
  next =>
  split at decoded
  next => cases decoded
  next =>
  split at decoded
  next =>
    split at decoded
    next second later =>
      obtain ⟨low, shownLow, decoded⟩ := Option.bind_eq_some_iff.1 decoded
      obtain ⟨found, shownCode, decoded⟩ := Option.bind_eq_some_iff.1 decoded
      cases decoded
      obtain ⟨lowSmall, lowByte⟩ := sixBits?_eq_some shownLow
      obtain ⟨least, code⟩ := charOfCode?_eq_some shownCode
      rw [encodeChar, if_neg (by omega), if_pos (by omega), ofNat_eq lead (by omega), lowByte _ (by omega)]
      rfl
    next => cases decoded
  next =>
  split at decoded
  next =>
    split at decoded
    next second third later =>
      obtain ⟨middle, shownMiddle, decoded⟩ := Option.bind_eq_some_iff.1 decoded
      obtain ⟨low, shownLow, decoded⟩ := Option.bind_eq_some_iff.1 decoded
      obtain ⟨found, shownCode, decoded⟩ := Option.bind_eq_some_iff.1 decoded
      cases decoded
      obtain ⟨middleSmall, middleByte⟩ := sixBits?_eq_some shownMiddle
      obtain ⟨lowSmall, lowByte⟩ := sixBits?_eq_some shownLow
      obtain ⟨least, code⟩ := charOfCode?_eq_some shownCode
      rw [encodeChar, if_neg (by omega), if_neg (by omega), if_pos (by omega), ofNat_eq lead (by omega),
        middleByte _ (by omega), lowByte _ (by omega)]
      rfl
    next => cases decoded
  next =>
    split at decoded
    next second third fourth later =>
      obtain ⟨high, shownHigh, decoded⟩ := Option.bind_eq_some_iff.1 decoded
      obtain ⟨middle, shownMiddle, decoded⟩ := Option.bind_eq_some_iff.1 decoded
      obtain ⟨low, shownLow, decoded⟩ := Option.bind_eq_some_iff.1 decoded
      obtain ⟨found, shownCode, decoded⟩ := Option.bind_eq_some_iff.1 decoded
      cases decoded
      obtain ⟨highSmall, highByte⟩ := sixBits?_eq_some shownHigh
      obtain ⟨middleSmall, middleByte⟩ := sixBits?_eq_some shownMiddle
      obtain ⟨lowSmall, lowByte⟩ := sixBits?_eq_some shownLow
      obtain ⟨least, code⟩ := charOfCode?_eq_some shownCode
      rw [encodeChar, if_neg (by omega), if_neg (by omega), if_neg (by omega), ofNat_eq lead (by omega),
        highByte _ (by omega), middleByte _ (by omega), lowByte _ (by omega)]
      rfl
    next => cases decoded

/-! Whole texts -/

theorem decodeAfter_ok {sound : Nat} {known decoded : Array Char} {bytes : List UInt8}
    (read : decodeAfter sound known bytes = .ok decoded) :
    ∃ text : List Char, decoded = known ++ text ∧ bytes = encode text := by
  fun_induction decodeAfter sound known bytes with
  | case1 sound known =>
      cases read
      exact ⟨[], by simp, rfl⟩
  | case2 sound known lead rest character used shown ih =>
      obtain ⟨text, rfl, behind⟩ := ih read
      refine ⟨character :: text, by simp, ?_⟩
      rw [encode_cons, encodeChar_of_decodeChar? shown, ← behind, List.cons_append, List.take_append_drop]
  | case3 => cases read

theorem decodeAfter_error {sound cut : Nat} {known : Array Char} {bytes : List UInt8}
    (read : decodeAfter sound known bytes = .error cut) :
    ∃ text lead rest, bytes = encode text ++ lead :: rest ∧ cut = sound + (encode text).length ∧
      decodeChar? lead rest = none := by
  fun_induction decodeAfter sound known bytes with
  | case1 => cases read
  | case2 sound known lead rest character used shown ih =>
      obtain ⟨text, bad, later, behind, length, refused⟩ := ih read
      have parts : lead :: rest = encode (character :: text) ++ bad :: later := by
        rw [encode_cons, List.append_assoc, ← behind, encodeChar_of_decodeChar? shown, List.cons_append,
          List.take_append_drop]
      have room := congrArg List.length behind
      simp only [List.length_drop, List.length_append, List.length_cons] at room
      refine ⟨character :: text, bad, later, parts, ?_, refused⟩
      rw [length, encode_cons, encodeChar_of_decodeChar? shown]
      simp only [List.length_append, List.length_cons, List.length_take]
      omega
  | case3 sound known lead rest refused =>
      cases read
      exact ⟨[], lead, rest, rfl, by simp [encode], refused⟩

theorem decode_eq_ok_iff {bytes : List UInt8} {text : List Char} :
    decode bytes = .ok text ↔ bytes = encode text := by
  constructor
  · intro read
    unfold decode at read
    cases decoded : decodeAfter 0 #[] bytes with
    | ok characters =>
        obtain ⟨found, rfl, written⟩ := decodeAfter_ok decoded
        simp only [decoded, Except.map, Except.ok.injEq] at read
        simpa [← read] using written
    | error cut => simp [decoded, Except.map] at read
  · rintro rfl
    exact decode_encode text

theorem decode_eq_error_iff {bytes : List UInt8} {sound : Nat} :
    decode bytes = .error sound ↔ LongestText bytes sound ∧ sound < bytes.length := by
  have of_error : ∀ {cut}, decode bytes = .error cut → LongestText bytes cut ∧ cut < bytes.length := by
    intro cut read
    unfold decode at read
    cases decoded : decodeAfter 0 #[] bytes with
    | ok characters => simp [decoded, Except.map] at read
    | error found =>
        simp only [decoded, Except.map, Except.error.injEq] at read
        subst read
        obtain ⟨text, lead, rest, rfl, length, refused⟩ := decodeAfter_error decoded
        rw [Nat.zero_add] at length
        refine ⟨⟨⟨text, ⟨_, rfl⟩, length.symm⟩, ?_⟩, by simp [length]⟩
        rintro longer ⟨behind, parts⟩
        -- Behind the longer text decoding goes on, and fails there at the earliest.
        have other := decodeAfter_encode longer behind 0 #[]
        rw [parts, decoded] at other
        obtain ⟨_, _, _, _, later, _⟩ := decodeAfter_error other.symm
        omega
  constructor
  · exact of_error
  · rintro ⟨longest, short⟩
    cases read : decode bytes with
    | ok text =>
        have whole := longest.longest text (decode_eq_ok_iff.1 read ▸ List.prefix_rfl)
        rw [← decode_eq_ok_iff.1 read] at whole
        omega
    | error cut =>
        obtain ⟨other, _⟩ := of_error read
        obtain ⟨text, begins, length⟩ := longest.text
        obtain ⟨text', begins', length'⟩ := other.text
        have upper := longest.longest text' begins'
        have lower := other.longest text begins
        rw [show cut = sound by omega]

end Rumour.Text.Utf8
