import GemBinder.Text.Quoted

/-! # Texts as bytes

    Files hold bytes; texts are written as UTF-8 and read back from it.  A
    strict reading stops at the first bytes that encode nothing, a lossy one
    puts a replacement character in their place.  Both skip the same bytes,
    because both look at the text through `firstChar`. -/

namespace GemBinder.Text

/-- The content of a file. -/
abbrev Bytes := List UInt8

/-- The bytes of a text. -/
def encode (s : String) : Bytes :=
  s.toList.flatMap String.utf8EncodeChar

/-! ## Faults -/

/-- What is wrong with bytes that encode no character. -/
inductive ByteFault where
  | invalidStart
  | invalidContinuation
  | unexpectedEnd
deriving Repr, DecidableEq

/-- The wording of a fault. -/
def ByteFault.message : ByteFault → String
  | .invalidStart => "invalid start byte"
  | .invalidContinuation => "invalid continuation byte"
  | .unexpectedEnd => "unexpected end of data"

/-- Bytes that encode no character: the fault, the place of the first one,
    that byte, and how many there are. -/
structure DecodeError where
  fault : ByteFault
  position : Nat
  byte : UInt8
  count : Nat
deriving Repr, DecidableEq

/-- The wording of a decoding error. -/
def DecodeError.message (e : DecodeError) : String :=
  let place :=
    if e.count == 1 then
      s!"byte 0x{String.ofList (hexDigits 2 e.byte.toNat)} in position {e.position}"
    else s!"bytes in position {e.position}-{e.position + e.count - 1}"
  s!"'utf-8' codec can't decode {place}: {e.fault.message}"

/-! ## One character -/

/-- Bytes that continue a character. -/
def isContinuation (b : UInt8) : Bool := 0x80 ≤ b && b < 0xC0

/-- The code point of a first byte's payload and its continuation bytes. -/
def joinPayload (lead : Nat) (more : List UInt8) : Char :=
  Char.ofNat (more.foldl (fun n b => n * 64 + b.toNat % 64) lead)

/-- The least and greatest second byte after a first byte, which keep out
    overlong forms, surrogates and numbers that are no code points. -/
def secondRange (b : UInt8) : UInt8 × UInt8 :=
  if b == 0xE0 then (0xA0, 0xBF)
  else if b == 0xED then (0x80, 0x9F)
  else if b == 0xF0 then (0x90, 0xBF)
  else if b == 0xF4 then (0x80, 0x8F)
  else (0x80, 0xBF)

/-- Takes continuation bytes behind `taken` bytes of a character: all that
    are due, or the fault and the number of bytes it covers. -/
def takeContinuation (taken : Nat) :
    Nat → Bytes → Except (ByteFault × Nat) (List UInt8)
  | 0, _ => .ok []
  | _ + 1, [] => .error (.unexpectedEnd, taken)
  | due + 1, b :: rest =>
      if isContinuation b then
        match takeContinuation (taken + 1) due rest with
        | .ok more => .ok (b :: more)
        | .error e => .error e
      else .error (.invalidContinuation, taken)

/-- The first character and its number of bytes, or the fault and the number
    of bytes it covers. -/
def firstChar (b : UInt8) (rest : Bytes) : Except (ByteFault × Nat) (Char × Nat) :=
  if b < 0x80 then .ok (Char.ofNat b.toNat, 1)
  else if b < 0xC2 || b > 0xF4 then .error (.invalidStart, 1)
  else
    let due := if b < 0xE0 then 1 else if b < 0xF0 then 2 else 3
    let lead := b.toNat % (if b < 0xE0 then 32 else if b < 0xF0 then 16 else 8)
    match rest with
    | [] => .error (.unexpectedEnd, 1)
    | second :: _ =>
        if (secondRange b).1 ≤ second && second ≤ (secondRange b).2 then
          match takeContinuation 1 due rest with
          | .ok more => .ok (joinPayload lead more, due + 1)
          | .error e => .error e
        else .error (.invalidContinuation, 1)

/-! ## Texts -/

/-- Reads the bytes from a position on, of which the first `skip` belong to
    what was read before. -/
def decodeFrom (position skip : Nat) : Bytes → Except DecodeError (List Char)
  | [] => .ok []
  | b :: rest =>
      match skip with
      | skip + 1 => decodeFrom (position + 1) skip rest
      | 0 =>
          match firstChar b rest with
          | .error (fault, count) => .error ⟨fault, position, b, count⟩
          | .ok (c, width) =>
              match decodeFrom (position + 1) (width - 1) rest with
              | .ok s => .ok (c :: s)
              | .error e => .error e

/-- The text that the bytes encode. -/
def decode (bytes : Bytes) : Except DecodeError String :=
  (decodeFrom 0 0 bytes).map String.ofList

/-- Reads the bytes, of which the first `skip` belong to what was read
    before, with replacement characters for what encodes nothing. -/
def decodeLossyFrom (skip : Nat) : Bytes → List Char
  | [] => []
  | b :: rest =>
      match skip with
      | skip + 1 => decodeLossyFrom skip rest
      | 0 =>
          match firstChar b rest with
          | .error (_, count) => '\uFFFD' :: decodeLossyFrom (count - 1) rest
          | .ok (c, width) => c :: decodeLossyFrom (width - 1) rest

/-- The text that the bytes encode, with replacement characters for what
    encodes nothing. -/
def decodeLossy (bytes : Bytes) : String :=
  String.ofList (decodeLossyFrom 0 bytes)

end GemBinder.Text
