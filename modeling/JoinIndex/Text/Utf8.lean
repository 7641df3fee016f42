/-!
Reading bytes as UTF-8 text when they may not be UTF-8: every longest start of a character that
its bytes do not complete, and every byte that starts no character, reads as U+FFFD.
-/

set_option autoImplicit false

namespace JoinIndex.Text.Utf8

/-- A character begun but not complete: `value` holds the bits read so far, `more` bytes follow
the next one, and the next one lies between `low` and `high`. -/
structure Begun where
  value : Nat
  more : Nat
  low : UInt8
  high : UInt8

def replacement : Char := '\uFFFD'

/-- What a byte does where a character may start. The bounds on the byte after it keep out
overlong forms, surrogates and numbers above the last code point. -/
inductive Start where
  | whole (c : Char)
  | begun (state : Begun)

def Start.ofByte (b : UInt8) : Start :=
  if b < 0x80 then .whole (Char.ofNat b.toNat)
  else if b < 0xC2 then .whole replacement
  else if b < 0xE0 then .begun ⟨b.toNat - 0xC0, 0, 0x80, 0xBF⟩
  else if b < 0xF0 then
    .begun ⟨b.toNat - 0xE0, 1, if b = 0xE0 then 0xA0 else 0x80, if b = 0xED then 0x9F else 0xBF⟩
  else if b < 0xF5 then
    .begun ⟨b.toNat - 0xF0, 2, if b = 0xF0 then 0x90 else 0x80, if b = 0xF4 then 0x8F else 0xBF⟩
  else .whole replacement

def decodeFrom : Option Begun → List UInt8 → List Char
  | none, [] => []
  | some _, [] => [replacement]
  | none, b :: rest =>
    match Start.ofByte b with
    | .whole c => c :: decodeFrom none rest
    | .begun state => decodeFrom (some state) rest
  | some state, b :: rest =>
    if state.low ≤ b && b ≤ state.high then
      let value := state.value * 64 + (b.toNat - 0x80)
      match state.more with
      | 0 => Char.ofNat value :: decodeFrom none rest
      | more + 1 => decodeFrom (some ⟨value, more, 0x80, 0xBF⟩) rest
    else
      match Start.ofByte b with
      | .whole c => replacement :: c :: decodeFrom none rest
      | .begun next => replacement :: decodeFrom (some next) rest

def decodeLossy (bytes : List UInt8) : String :=
  String.ofList (decodeFrom none bytes)

end JoinIndex.Text.Utf8
