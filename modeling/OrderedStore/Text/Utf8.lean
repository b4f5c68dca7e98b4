/-
Texts as byte strings. A text is stored as its UTF-8 bytes; a byte string
is read back as a text only if it is well formed. Where bytes have to be
shown whatever they are, each stretch that is the start of no character,
taken as long as it could still have become one, is shown as one
replacement character.
-/
import OrderedStore.Bytes

namespace OrderedStore.Text

/-- The UTF-8 bytes of a text. -/
def toBytes (s : String) : Bytes :=
  s.toByteArray.data.toList

/-- The text that the bytes spell, if they are well-formed UTF-8. -/
def ofBytes? (bs : Bytes) : Option String :=
  String.fromUTF8? ⟨bs.toArray⟩

-- ======================================================== bytes as shown

/-- A character that has been started: its bits so far, the bounds of the
byte that may come next, and how many more bytes after that. -/
structure Started where
  bits : Nat
  low : Nat
  high : Nat
  after : Nat

/-- What a byte in first position is. -/
inductive Lead where
  | whole (c : Char)
  | started (s : Started)
  | stray

/-- A byte in first position. The second byte of some characters has
narrower bounds, so that no character has two spellings, none is a
surrogate and none is beyond the last code point. -/
def lead (b : Nat) : Lead :=
  if b < 0x80 then .whole (Char.ofNat b)
  else if b < 0xC2 then .stray
  else if b < 0xE0 then .started ⟨b - 0xC0, 0x80, 0xBF, 0⟩
  else if b = 0xE0 then .started ⟨0, 0xA0, 0xBF, 1⟩
  else if b = 0xED then .started ⟨0xD, 0x80, 0x9F, 1⟩
  else if b < 0xF0 then .started ⟨b - 0xE0, 0x80, 0xBF, 1⟩
  else if b = 0xF0 then .started ⟨0, 0x90, 0xBF, 2⟩
  else if b < 0xF4 then .started ⟨b - 0xF0, 0x80, 0xBF, 2⟩
  else if b = 0xF4 then .started ⟨4, 0x80, 0x8F, 2⟩
  else .stray

/-- The character shown for what is no character. -/
def replacement : Char :=
  Char.ofNat 0xFFFD

/-- Bytes that have been read: the characters shown for them, last first,
and the character that has been started behind those. -/
structure Showing where
  done : List Char
  started : Option Started

namespace Showing

/-- A byte in first position. -/
def first (done : List Char) (b : UInt8) : Showing :=
  match lead b.toNat with
  | .whole c => ⟨c :: done, none⟩
  | .started s => ⟨done, some s⟩
  | .stray => ⟨replacement :: done, none⟩

/-- One more byte. -/
def push (w : Showing) (b : UInt8) : Showing :=
  match w.started with
  | none => first w.done b
  | some s =>
    if s.low ≤ b.toNat ∧ b.toNat ≤ s.high then
      let bits := s.bits * 64 + b.toNat % 64
      match s.after with
      | 0 => ⟨Char.ofNat bits :: w.done, none⟩
      | n + 1 => ⟨w.done, some ⟨bits, 0x80, 0xBF, n⟩⟩
    else first (replacement :: w.done) b

/-- The characters, once there are no more bytes. -/
def chars (w : Showing) : List Char :=
  match w.started with
  | none => w.done.reverse
  | some _ => (replacement :: w.done).reverse

end Showing

/-- The bytes as a text, whatever they are. -/
def shown (bs : Bytes) : String :=
  String.ofList (bs.foldl Showing.push ⟨[], none⟩).chars

end OrderedStore.Text
