set_option autoImplicit false

/-!
Bytes of text. `encode` writes characters as one to four bytes. `decode` reads only what `encode` writes:
the shortest form of a character that exists; a failure tells how many bytes before it are sound. Main
statement: `decode_encode`, text is decoded from its bytes.
-/

namespace Rumour.Text.Utf8

def continuation (bits : Nat) : UInt8 :=
  UInt8.ofNat (0x80 + bits % 0x40)

def encodeChar (character : Char) : List UInt8 :=
  let code := character.toNat
  if code < 0x80 then
    [UInt8.ofNat code]
  else if code < 0x800 then
    [UInt8.ofNat (0xc0 + code / 0x40), continuation code]
  else if code < 0x10000 then
    [UInt8.ofNat (0xe0 + code / 0x1000), continuation (code / 0x40), continuation code]
  else
    [UInt8.ofNat (0xf0 + code / 0x40000), continuation (code / 0x1000), continuation (code / 0x40),
      continuation code]

def encode (text : List Char) : List UInt8 :=
  text.flatMap encodeChar

def sixBits? (byte : UInt8) : Option Nat :=
  if 0x80 <= byte.toNat && byte.toNat < 0xc0 then some (byte.toNat - 0x80) else none

/-- The character of a code that needs as many bytes as it was given. -/
def charOfCode? (least code : Nat) : Option Char :=
  if least <= code && code.isValidChar then some (Char.ofNat code) else none

/-- The character that starts with a byte, and how many of the bytes after it belong to it. -/
def decodeChar? (lead : UInt8) (rest : List UInt8) : Option (Char × Nat) :=
  let code := lead.toNat
  if code < 0x80 then
    some (Char.ofNat code, 0)
  else if code < 0xc0 then
    none
  else if code < 0xe0 then
    match rest with
    | second :: _ => do
        let low <- sixBits? second
        let character <- charOfCode? 0x80 ((code - 0xc0) * 0x40 + low)
        pure (character, 1)
    | _ => none
  else if code < 0xf0 then
    match rest with
    | second :: third :: _ => do
        let middle <- sixBits? second
        let low <- sixBits? third
        let character <- charOfCode? 0x800 ((code - 0xe0) * 0x1000 + middle * 0x40 + low)
        pure (character, 2)
    | _ => none
  else
    match rest with
    | second :: third :: fourth :: _ => do
        let high <- sixBits? second
        let middle <- sixBits? third
        let low <- sixBits? fourth
        let character <- charOfCode? 0x10000
          ((code - 0xf0) * 0x40000 + high * 0x1000 + middle * 0x40 + low)
        pure (character, 3)
    | _ => none

/-- Decodes bytes after a sound part of some length whose characters are known. -/
def decodeAfter (sound : Nat) (characters : Array Char) : List UInt8 -> Except Nat (Array Char)
  | [] => .ok characters
  | lead :: rest =>
      match decodeChar? lead rest with
      | some (character, used) =>
          decodeAfter (sound + used + 1) (characters.push character) (rest.drop used)
      | none => .error sound
  termination_by bytes => bytes.length

/-- The characters of some bytes, or how many of the bytes are sound. -/
def decode (bytes : List UInt8) : Except Nat (List Char) :=
  (decodeAfter 0 #[] bytes).map Array.toList

theorem sixBits?_continuation (bits : Nat) : sixBits? (continuation bits) = some (bits % 0x40) := by
  have small : (continuation bits).toNat = 0x80 + bits % 0x40 := by
    simp only [continuation, UInt8.toNat_ofNat']
    omega
  simp [sixBits?, small]
  omega

theorem charOfCode?_toNat (least : Nat) (character : Char) (large : least <= character.toNat) :
    charOfCode? least character.toNat = some character := by
  have valid : character.toNat.isValidChar := character.valid
  simp [charOfCode?, large, valid]

/-- The first of some encoded characters is decoded, and all of its bytes are used. -/
theorem decodeChar?_encodeChar (character : Char) (rest : List UInt8) :
    exists lead tail, encodeChar character = lead :: tail /\
      decodeChar? lead (tail ++ rest) = some (character, tail.length) := by
  have bound : character.toNat < 0x110000 := by
    have valid := character.valid
    have same : character.toNat = character.val.toNat := rfl
    rw [same]
    cases valid <;> omega
  unfold encodeChar
  -- Each length apart; a bind is opened by its equation, never by computing with the literals.
  by_cases one : character.toNat < 0x80
  next =>
    have lead : (UInt8.ofNat character.toNat).toNat = character.toNat := by
      rw [UInt8.toNat_ofNat']
      omega
    refine ⟨_, _, by simp only [one, if_true]; rfl, ?_⟩
    simp [decodeChar?, lead, one]
  by_cases two : character.toNat < 0x800
  next =>
    have lead : (UInt8.ofNat (0xc0 + character.toNat / 0x40)).toNat = 0xc0 + character.toNat / 0x40 := by
      rw [UInt8.toNat_ofNat']
      omega
    have code : character.toNat / 0x40 * 0x40 + character.toNat % 0x40 = character.toNat := by omega
    refine ⟨_, _, by simp only [one, two, if_true, if_false]; rfl, ?_⟩
    simp only [decodeChar?, lead, List.cons_append, List.nil_append]
    rw [if_neg (by omega), if_neg (by omega), if_pos (by omega)]
    have shown := charOfCode?_toNat 0x80 character (by omega)
    have first : 0xc0 + character.toNat / 0x40 - 0xc0 = character.toNat / 0x40 := by omega
    rw [<- code] at shown
    rw [first]
    apply Option.bind_eq_some_iff.2 ⟨_, sixBits?_continuation _, ?_⟩
    exact Option.bind_eq_some_iff.2 ⟨_, shown, rfl⟩
  by_cases three : character.toNat < 0x10000
  next =>
    have lead : (UInt8.ofNat (0xe0 + character.toNat / 0x1000)).toNat =
        0xe0 + character.toNat / 0x1000 := by
      rw [UInt8.toNat_ofNat']
      omega
    have code : character.toNat / 0x1000 * 0x1000 + character.toNat / 0x40 % 0x40 * 0x40 +
        character.toNat % 0x40 = character.toNat := by omega
    refine ⟨_, _, by simp only [one, two, three, if_true, if_false]; rfl, ?_⟩
    simp only [decodeChar?, lead, List.cons_append, List.nil_append]
    rw [if_neg (by omega), if_neg (by omega), if_neg (by omega), if_pos (by omega)]
    have shown := charOfCode?_toNat 0x800 character (by omega)
    have first : 0xe0 + character.toNat / 0x1000 - 0xe0 = character.toNat / 0x1000 := by omega
    rw [<- code] at shown
    rw [first]
    apply Option.bind_eq_some_iff.2 ⟨_, sixBits?_continuation _, ?_⟩
    apply Option.bind_eq_some_iff.2 ⟨_, sixBits?_continuation _, ?_⟩
    exact Option.bind_eq_some_iff.2 ⟨_, shown, rfl⟩
  next =>
    have lead : (UInt8.ofNat (0xf0 + character.toNat / 0x40000)).toNat =
        0xf0 + character.toNat / 0x40000 := by
      rw [UInt8.toNat_ofNat']
      omega
    have code : character.toNat / 0x40000 * 0x40000 + character.toNat / 0x1000 % 0x40 * 0x1000 +
        character.toNat / 0x40 % 0x40 * 0x40 + character.toNat % 0x40 = character.toNat := by omega
    refine ⟨_, _, by simp only [one, two, three, if_false]; rfl, ?_⟩
    simp only [decodeChar?, lead, List.cons_append, List.nil_append]
    rw [if_neg (by omega), if_neg (by omega), if_neg (by omega), if_neg (by omega)]
    have shown := charOfCode?_toNat 0x10000 character (by omega)
    have first : 0xf0 + character.toNat / 0x40000 - 0xf0 = character.toNat / 0x40000 := by omega
    rw [<- code] at shown
    rw [first]
    apply Option.bind_eq_some_iff.2 ⟨_, sixBits?_continuation _, ?_⟩
    apply Option.bind_eq_some_iff.2 ⟨_, sixBits?_continuation _, ?_⟩
    apply Option.bind_eq_some_iff.2 ⟨_, sixBits?_continuation _, ?_⟩
    exact Option.bind_eq_some_iff.2 ⟨_, shown, rfl⟩

theorem decodeAfter_encode (text : List Char) (rest : List UInt8) (sound : Nat) (known : Array Char) :
    decodeAfter sound known (encode text ++ rest) =
      decodeAfter (sound + (encode text).length) (known ++ text) rest := by
  induction text generalizing sound known with
  | nil => simp [encode]
  | cons character text ih =>
      obtain ⟨lead, tail, written, decoded⟩ :=
        decodeChar?_encodeChar character (encode text ++ rest)
      have bytes : encode (character :: text) = lead :: (tail ++ encode text) := by
        simp [encode, written]
      rw [bytes, List.cons_append, List.append_assoc, decodeAfter, decoded]
      simp only [List.drop_left, ih]
      have used : sound + tail.length + 1 + (encode text).length =
          sound + (lead :: (tail ++ encode text)).length := by
        simp only [List.length_cons, List.length_append]
        omega
      simp [used]

theorem decode_encode (text : List Char) : decode (encode text) = .ok text := by
  have whole := decodeAfter_encode text [] 0 #[]
  rw [List.append_nil] at whole
  simp [decode, whole, decodeAfter, Except.map]

end Rumour.Text.Utf8
