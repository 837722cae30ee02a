/-! Reading UTF-8, with the place and length of the first fault. -/
namespace Snooping.Text.Utf8

/-- Where reading stopped, and how many bytes stand there in vain; `none` if the bytes ran out. -/
structure Fault where
  index : Nat
  length : Option Nat
deriving DecidableEq

def Fault.message (f : Fault) : String :=
  match f.length with
  | some n => "invalid utf-8 sequence of " ++ n.repr ++ " bytes from index " ++ f.index.repr
  | none => "incomplete utf-8 byte sequence from index " ++ f.index.repr

def isContinuation (b : UInt8) : Bool := 0x80 ≤ b && b ≤ 0xbf

/-- Second bytes that keep a character of three bytes shortest and off the surrogates. -/
def secondOf3 (lead b : UInt8) : Bool :=
  if lead = 0xe0 then 0xa0 ≤ b && b ≤ 0xbf
  else if lead = 0xed then 0x80 ≤ b && b ≤ 0x9f
  else isContinuation b

/-- Second bytes that keep a character of four bytes shortest and below the last one. -/
def secondOf4 (lead b : UInt8) : Bool :=
  if lead = 0xf0 then 0x90 ≤ b && b ≤ 0xbf
  else if lead = 0xf4 then 0x80 ≤ b && b ≤ 0x8f
  else isContinuation b

def low6 (b : UInt8) : Nat := b.toNat % 0x40

/-- The bytes after `i` that were read. -/
def decodeFrom (i : Nat) : List UInt8 → Except Fault (List Char)
  | [] => .ok []
  | a :: rest =>
    let fault (n : Nat) : Except Fault (List Char) := .error ⟨i, some n⟩
    if a < 0x80 then (decodeFrom (i + 1) rest).map (Char.ofNat a.toNat :: ·)
    else if 0xc2 ≤ a && a ≤ 0xdf then
      match rest with
      | [] => .error ⟨i, none⟩
      | b :: rest =>
        if !isContinuation b then fault 1
        else (decodeFrom (i + 2) rest).map (Char.ofNat (a.toNat % 0x20 * 0x40 + low6 b) :: ·)
    else if 0xe0 ≤ a && a ≤ 0xef then
      match rest with
      | [] => .error ⟨i, none⟩
      | b :: rest =>
        if !secondOf3 a b then fault 1
        else
          match rest with
          | [] => .error ⟨i, none⟩
          | c :: rest =>
            if !isContinuation c then fault 2
            else
              (decodeFrom (i + 3) rest).map
                (Char.ofNat (a.toNat % 0x10 * 0x1000 + low6 b * 0x40 + low6 c) :: ·)
    else if 0xf0 ≤ a && a ≤ 0xf4 then
      match rest with
      | [] => .error ⟨i, none⟩
      | b :: rest =>
        if !secondOf4 a b then fault 1
        else
          match rest with
          | [] => .error ⟨i, none⟩
          | c :: rest =>
            if !isContinuation c then fault 2
            else
              match rest with
              | [] => .error ⟨i, none⟩
              | d :: rest =>
                if !isContinuation d then fault 3
                else
                  (decodeFrom (i + 4) rest).map
                    (Char.ofNat (a.toNat % 8 * 0x40000 + low6 b * 0x1000 + low6 c * 0x40 + low6 d)
                      :: ·)
    else fault 1

def decode (bytes : List UInt8) : Except Fault (List Char) := decodeFrom 0 bytes

end Snooping.Text.Utf8
