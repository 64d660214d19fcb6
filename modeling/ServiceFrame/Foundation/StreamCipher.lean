import Mathlib.Data.List.Basic

/-! # Stream ciphers with state

A stream cipher turns a key into a state, and each state into one keystream
byte and the next state. Crypting xors the text with the keystream, so crypting
a text in pieces, with the state carried from one piece to the next, is crypting
it whole.
-/

namespace ServiceFrame.Foundation

structure StreamCipher where
  State : Type
  setKey : List UInt8 → State
  next : State → UInt8 × State

namespace StreamCipher

variable (cipher : StreamCipher)

/-- Xor `text` with the keystream from `state` on; the same map decrypts. -/
def crypt (state : cipher.State) : List UInt8 → List UInt8 × cipher.State
  | [] => ([], state)
  | byte :: rest =>
      let stepped := cipher.next state
      let tail := crypt stepped.2 rest
      ((byte ^^^ stepped.1) :: tail.1, tail.2)

@[simp] theorem crypt_nil (state : cipher.State) : cipher.crypt state [] = ([], state) := rfl

theorem crypt_append (state : cipher.State) (first second : List UInt8) :
    cipher.crypt state (first ++ second) =
      ((cipher.crypt state first).1 ++ (cipher.crypt (cipher.crypt state first).2 second).1,
        (cipher.crypt (cipher.crypt state first).2 second).2) := by
  induction first generalizing state with
  | nil => rfl
  | cons byte rest ih => simp only [List.cons_append, crypt, ih]

theorem length_crypt (state : cipher.State) (text : List UInt8) :
    (cipher.crypt state text).1.length = text.length := by
  induction text generalizing state with
  | nil => rfl
  | cons byte rest ih => simp only [crypt, List.length_cons, ih]

/-- Crypting twice from one state gives the text back. -/
theorem crypt_crypt (state : cipher.State) (text : List UInt8) :
    cipher.crypt state (cipher.crypt state text).1 = (text, (cipher.crypt state text).2) := by
  induction text generalizing state with
  | nil => rfl
  | cons byte rest ih =>
      simp only [crypt, ih, UInt8.xor_assoc, UInt8.xor_self, UInt8.xor_zero]

end StreamCipher

/-! ## RC4 -/

/-- The permutation and the two indices of an RC4 key. -/
structure Rc4State where
  perm : Array UInt8
  i : UInt8
  j : UInt8

namespace Rc4

def look (perm : Array UInt8) (i : UInt8) : UInt8 := perm.getD i.toNat 0

def swap (perm : Array UInt8) (i j : UInt8) : Array UInt8 :=
  (perm.setIfInBounds i.toNat (look perm j)).setIfInBounds j.toNat (look perm i)

/-- One round of the key schedule. -/
def scheduleStep (key : List UInt8) (state : Rc4State) (round : Nat) : Rc4State :=
  let i := UInt8.ofNat round
  let j := state.j + look state.perm i + key.getD (round % key.length) 0
  { perm := swap state.perm i j, i := 0, j := j }

def setKey (key : List UInt8) : Rc4State :=
  let start : Rc4State := { perm := (Array.range 256).map UInt8.ofNat, i := 0, j := 0 }
  { (List.range 256).foldl (scheduleStep key) start with j := 0 }

def next (state : Rc4State) : UInt8 × Rc4State :=
  let i := state.i + 1
  let j := state.j + look state.perm i
  let perm := swap state.perm i j
  (look perm (look perm i + look perm j), { perm := perm, i := i, j := j })

end Rc4

/-- RC4 as a stream cipher. -/
def rc4 : StreamCipher where
  State := Rc4State
  setKey := Rc4.setKey
  next := Rc4.next

end ServiceFrame.Foundation
