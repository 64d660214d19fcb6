import ServiceFrame.Common.Packet
import ServiceFrame.Foundation.SortedSet
import Mathlib.Logic.Equiv.Defs

/-! # Marshalling

The overloads of `operator<<` and `operator>>` and the container helpers of
`common/packet.h`, over every type they can be applied to. A record is a type
whose `marshal` and `unmarshal` send its fields in order: it is, up to an equivalence,
the nested pair of those fields.
-/

namespace ServiceFrame

open Foundation

/-- How a value of the indexing type is marshalled. -/
inductive Marshal : Type → Type 1 where
  | bool : Marshal Bool
  | uint8 : Marshal UInt8
  | uint16 : Marshal UInt16
  | uint32 : Marshal UInt32
  | uint64 : Marshal UInt64
  | int32 : Marshal Int32
  | int64 : Marshal Int64
  /-- `std::string` and `Varstr`, through `push_varstr`. -/
  | varstr : Marshal (List UInt8)
  /-- A string sent with `push_varstr32`. -/
  | varstr32 : Marshal (List UInt8)
  | pair {First Second : Type} (first : Marshal First) (second : Marshal Second) :
      Marshal (First × Second)
  | vector {Elem : Type} (elem : Marshal Elem) : Marshal (List Elem)
  | set {Elem : Type} (less : Less Elem) (elem : Marshal Elem) : Marshal (SortedSet less)
  | map {Key Value : Type} (less : Less Key) (key : Marshal Key) (value : Marshal Value) :
      Marshal (SortedMap less Value)
  | record {Fields Record : Type} (view : Record ≃ Fields) (fields : Marshal Fields) :
      Marshal Record

namespace Marshal

/-- `marshal_container`: the element count, then the elements. -/
def marshalContainer {Elem : Type} (put : Elem → Pack → Except PackError Pack)
    (elems : List Elem) (p : Pack) : Except PackError Pack :=
  (p.pushUint32 (UInt32.ofNat elems.length)).bind fun q =>
    elems.foldlM (fun q elem => put elem q) q

/-- `s << p.first << p.second`. -/
def putBoth {First Second : Type} (putFirst : First → Pack → Except PackError Pack)
    (putSecond : Second → Pack → Except PackError Pack) (value : First × Second) (p : Pack) :
    Except PackError Pack :=
  (putFirst value.1 p).bind fun q => putSecond value.2 q

/-- `p << value`. -/
def put {Value : Type} : Marshal Value → Value → Pack → Except PackError Pack
  | bool, sign, p => p.pushUint8 (if sign then 1 else 0)
  | uint8, i8, p => p.pushUint8 i8
  | uint16, i16, p => p.pushUint16 i16
  | uint32, i32, p => p.pushUint32 i32
  | uint64, i64, p => p.pushUint64 i64
  | int32, i32, p => p.pushUint32 i32.toUInt32
  | int64, i64, p => p.pushUint64 i64.toUInt64
  | varstr, str, p => p.pushVarstr str
  | varstr32, str, p => p.pushVarstr32 str
  | pair first second, value, p => putBoth first.put second.put value p
  | vector elem, vec, p => marshalContainer elem.put vec p
  | set _ elem, elems, p => marshalContainer elem.put elems.elems p
  | map _ key value, entries, p => marshalContainer (putBoth key.put value.put) entries.elems p
  | record view fields, value, p => fields.put (view value) p

/-- The loop of `unmarshal_container`, with `count` elements to go: pop one into
a fresh temporary, give it to the output iterator. -/
def unmarshalLoop {Elem Target : Type} (pop : Unpack → Except UnpackError (Elem × Unpack))
    (insert : Target → Elem → Target) : Nat → Target → Unpack →
      Except UnpackError (Target × Unpack)
  | 0, target, up => .ok (target, up)
  | count + 1, target, up =>
      (pop up).bind fun (tmp, rest) => unmarshalLoop pop insert count (insert target tmp) rest

/-- `unmarshal_container`. -/
def unmarshalContainer {Elem Target : Type} (pop : Unpack → Except UnpackError (Elem × Unpack))
    (insert : Target → Elem → Target) (target : Target) (up : Unpack) :
    Except UnpackError (Target × Unpack) :=
  up.popUint32.bind fun (count, rest) => unmarshalLoop pop insert count.toNat target rest

/-- A temporary of the element type, as `unmarshal_container` declares it. -/
def fresh {Value : Type} : Marshal Value → Value
  | bool => false
  | uint8 => 0
  | uint16 => 0
  | uint32 => 0
  | uint64 => 0
  | int32 => 0
  | int64 => 0
  | varstr => []
  | varstr32 => []
  | pair first second => (first.fresh, second.fresh)
  | vector _ => []
  | set _ _ => .empty
  | map _ _ _ => .empty
  | record view fields => view.symm fields.fresh

/-- `s >> p.first >> p.second`. -/
def popBoth {First Second : Type} (popFirst : Unpack → Except UnpackError (First × Unpack))
    (popSecond : Unpack → Except UnpackError (Second × Unpack)) (up : Unpack) :
    Except UnpackError ((First × Second) × Unpack) :=
  (popFirst up).bind fun (a, rest) => (popSecond rest).bind fun (b, rest) => .ok ((a, b), rest)

/-- Pop and convert, as a cast or a constructor does. -/
def popAs {Raw Value : Type} (convert : Raw → Value)
    (pop : Unpack → Except UnpackError (Raw × Unpack)) (up : Unpack) :
    Except UnpackError (Value × Unpack) :=
  (pop up).bind fun (raw, rest) => .ok (convert raw, rest)

theorem popBoth_ok {First Second : Type} {popFirst : Unpack → Except UnpackError (First × Unpack)}
    {popSecond : Unpack → Except UnpackError (Second × Unpack)} {up rest : Unpack}
    {value : First × Second} (hpop : popBoth popFirst popSecond up = .ok (value, rest)) :
    ∃ middle, popFirst up = .ok (value.1, middle) ∧ popSecond middle = .ok (value.2, rest) := by
  obtain ⟨⟨first, middle⟩, hfirst, hpop⟩ := Pack.bind_ok hpop
  obtain ⟨⟨second, behind⟩, hsecond, hsame⟩ := Pack.bind_ok hpop
  cases hsame
  exact ⟨middle, hfirst, hsecond⟩

theorem popAs_ok {Raw Value : Type} {convert : Raw → Value}
    {pop : Unpack → Except UnpackError (Raw × Unpack)} {up rest : Unpack} {value : Value}
    (hpop : popAs convert pop up = .ok (value, rest)) :
    ∃ raw, pop up = .ok (raw, rest) ∧ convert raw = value := by
  obtain ⟨⟨raw, behind⟩, hraw, hsame⟩ := Pack.bind_ok hpop
  cases hsame
  exact ⟨raw, hraw, rfl⟩

/-- `p >> target`: numbers and strings are overwritten, containers inserted into. -/
def pop {Value : Type} : Marshal Value → Value → Unpack → Except UnpackError (Value × Unpack)
  | bool, _, up => popAs (fun u8 => if u8 == 0 then false else true) Unpack.popUint8 up
  | uint8, _, up => up.popUint8
  | uint16, _, up => up.popUint16
  | uint32, _, up => up.popUint32
  | uint64, _, up => up.popUint64
  | int32, _, up => popAs UInt32.toInt32 Unpack.popUint32 up
  | int64, _, up => popAs UInt64.toInt64 Unpack.popUint64 up
  | varstr, _, up => up.popVarstr
  | varstr32, _, up => up.popVarstr32
  | pair first second, target, up => popBoth (first.pop target.1) (second.pop target.2) up
  | vector elem, target, up =>
      unmarshalContainer (elem.pop elem.fresh) (fun vec tmp => vec ++ [tmp]) target up
  | set _ elem, target, up =>
      unmarshalContainer (elem.pop elem.fresh) SortedSet.insert target up
  | map _ key value, target, up =>
      unmarshalContainer (popBoth (key.pop key.fresh) (value.pop value.fresh))
        SortedSet.insert target up
  | record view fields, target, up => popAs view.symm (fields.pop (view target)) up

/-- A target whose containers, at every depth it has before unpacking, are empty. -/
def Fresh {Value : Type} : Marshal Value → Value → Prop
  | bool, _ | uint8, _ | uint16, _ | uint32, _ | uint64, _ | int32, _ | int64, _
  | varstr, _ | varstr32, _ => True
  | pair first second, target => first.Fresh target.1 ∧ second.Fresh target.2
  | vector _, target => target = []
  | set _ _, target => target = .empty
  | map _ _ _, target => target = .empty
  | record view fields, target => fields.Fresh (view target)

/-! ## Round trip -/

/-- Packing `value` wrote at least one byte, and unpacking what it wrote, with
anything behind it, gives `value` back. -/
def RoundTrip {Value : Type} (pop : Unpack → Except UnpackError (Value × Unpack))
    (value : Value) (p q : Pack) : Prop :=
  ∃ bytes, bytes ≠ [] ∧ Pack.Wrote p q bytes ∧ ∀ rest, pop (bytes ++ rest) = .ok (value, rest)

theorem roundTrip_uint32 {p q : Pack} {value : UInt32} (hput : p.pushUint32 value = .ok q) :
    RoundTrip Unpack.popUint32 value p q :=
  ⟨_, by simp [Pack.xhton, leBytes], Pack.push_ok hput, fun rest => by
    rw [Pack.xhton, Unpack.popUint32_leBytes value.toNat_lt, UInt32.ofNat_toNat]⟩

theorem roundTrip_uint64 {p q : Pack} {value : UInt64} (hput : p.pushUint64 value = .ok q) :
    RoundTrip Unpack.popUint64 value p q :=
  ⟨_, by simp [Pack.xhton, leBytes], Pack.push_ok hput, fun rest => by
    rw [Pack.xhton, Unpack.popUint64_leBytes value.toNat_lt, UInt64.ofNat_toNat]⟩

theorem RoundTrip.convert {Raw Value : Type} {pop : Unpack → Except UnpackError (Raw × Unpack)}
    {raw : Raw} {p q : Pack} (htrip : RoundTrip pop raw p q) (convert : Raw → Value) :
    RoundTrip (popAs convert pop) (convert raw) p q := by
  obtain ⟨bytes, hne, hwrote, hpop⟩ := htrip
  exact ⟨bytes, hne, hwrote, fun rest => by rw [popAs, hpop]; rfl⟩

theorem RoundTrip.both {First Second : Type}
    {popFirst : Unpack → Except UnpackError (First × Unpack)}
    {popSecond : Unpack → Except UnpackError (Second × Unpack)} {a : First} {b : Second}
    {p q r : Pack} (hfirst : RoundTrip popFirst a p q) (hsecond : RoundTrip popSecond b q r) :
    RoundTrip (popBoth popFirst popSecond) (a, b) p r := by
  obtain ⟨first, hne, hwrote, hpop⟩ := hfirst
  obtain ⟨second, _, hwrote', hpop'⟩ := hsecond
  refine ⟨first ++ second, by simp [hne], hwrote.trans hwrote', fun rest => ?_⟩
  rw [popBoth, List.append_assoc, hpop]
  simp only [Except.bind]
  rw [hpop']

section Container

variable {Elem : Type} {putElem : Elem → Pack → Except PackError Pack}
variable {popElem : Unpack → Except UnpackError (Elem × Unpack)}

/-- The elements alone: at least one byte each, and the loop gives them to the
target in order. -/
theorem foldlM_roundTrip
    (helem : ∀ elem p q, putElem elem p = .ok q → RoundTrip popElem elem p q)
    {elems : List Elem} {p q : Pack}
    (hput : elems.foldlM (fun q elem => putElem elem q) p = .ok q) :
    ∃ bytes, elems.length ≤ bytes.length ∧ Pack.Wrote p q bytes ∧
      ∀ {Target : Type} (insert : Target → Elem → Target) target rest,
        unmarshalLoop popElem insert elems.length target (bytes ++ rest) =
          .ok (elems.foldl insert target, rest) := by
  induction elems generalizing p with
  | nil =>
      cases hput
      exact ⟨[], Nat.le_refl _, Pack.Wrote.refl _, fun _ _ _ => rfl⟩
  | cons elem elems ih =>
      obtain ⟨middle, hfirst, hrest⟩ := Pack.bind_ok hput
      obtain ⟨first, hne, hwrote, hpop⟩ := helem elem p middle hfirst
      obtain ⟨second, hlength, hwrote', hloop⟩ := ih hrest
      refine ⟨first ++ second, ?_, hwrote.trans hwrote', ?_⟩
      · have hpos := List.length_pos_iff.mpr hne
        simp only [List.length_cons, List.length_append]
        omega
      · intro _ insert target rest
        simp only [List.length_cons, unmarshalLoop, List.append_assoc, hpop, Except.bind]
        exact hloop insert (insert target elem) rest

/-- A container comes back as its elements, inserted one by one. The count goes
out in 32 bits; a container with more elements overflows the packet first. -/
theorem container_roundTrip {p q : Pack} {elems : List Elem}
    (helem : ∀ elem p q, putElem elem p = .ok q → RoundTrip popElem elem p q)
    (hput : marshalContainer putElem elems p = .ok q) {Target : Type}
    (insert : Target → Elem → Target) (target : Target) :
    RoundTrip (unmarshalContainer popElem insert target) (elems.foldl insert target) p q := by
  obtain ⟨middle, hcount, helems⟩ := Pack.bind_ok hput
  obtain ⟨head, hne, hwrote, hpop⟩ := roundTrip_uint32 hcount
  obtain ⟨bytes, hlength, hwrote', hloop⟩ := foldlM_roundTrip helem helems
  have hsmall : elems.length < 2 ^ 32 := by
    have hbytes := hwrote'.length_le
    omega
  refine ⟨head ++ bytes, by simp [hne], hwrote.trans hwrote', fun rest => ?_⟩
  rw [unmarshalContainer, List.append_assoc, hpop]
  simp only [Except.bind]
  rw [UInt32.toNat_ofNat_of_lt' hsmall, hloop]

end Container

theorem foldl_push_back {Elem : Type} (elems target : List Elem) :
    elems.foldl (fun vec tmp => vec ++ [tmp]) target = target ++ elems := by
  induction elems generalizing target with
  | nil => simp
  | cons elem elems ih => rw [List.foldl_cons, ih, List.append_assoc, List.singleton_append]

theorem fresh_fresh {Value : Type} (m : Marshal Value) : m.Fresh m.fresh := by
  induction m with
  | pair first second ihFirst ihSecond => exact ⟨ihFirst, ihSecond⟩
  | vector elem _ => rfl
  | set less elem _ => rfl
  | map less key value _ _ => rfl
  | record view fields ih => simpa only [Fresh, fresh, Equiv.apply_symm_apply] using ih
  | _ => trivial

/-- One case for each overload; the containers are the common lemma at their
own way of inserting. -/
theorem put_roundTrip {Value : Type} (m : Marshal Value) {value target : Value} {p q : Pack}
    (htarget : m.Fresh target) (hput : m.put value p = .ok q) :
    RoundTrip (m.pop target) value p q := by
  induction m generalizing p q with
  | bool =>
      have htrip : RoundTrip Unpack.popUint8 (if value then 1 else 0) p q :=
        ⟨_, by simp, Pack.push_ok hput, fun _ => rfl⟩
      cases value <;> exact htrip.convert _
  | uint8 => exact ⟨[value], by simp, Pack.push_ok hput, fun _ => rfl⟩
  | uint16 =>
      refine ⟨_, by simp [Pack.xhton, leBytes], Pack.push_ok hput, fun rest => ?_⟩
      rw [pop, Pack.xhton, Unpack.popUint16_leBytes value.toNat_lt, UInt16.ofNat_toNat]
  | uint32 => exact roundTrip_uint32 hput
  | uint64 => exact roundTrip_uint64 hput
  | int32 => exact (roundTrip_uint32 hput).convert UInt32.toInt32
  | int64 => exact (roundTrip_uint64 hput).convert UInt64.toInt64
  | varstr =>
      obtain ⟨hsmall, hwrote⟩ := Pack.pushVarstr_ok hput
      exact ⟨_, by simp [leBytes], hwrote, fun rest => Unpack.popVarstr_append hsmall rest⟩
  | varstr32 =>
      obtain ⟨hsmall, hwrote⟩ := Pack.pushVarstr32_ok hput
      exact ⟨_, by simp [leBytes], hwrote, fun rest => Unpack.popVarstr32_append hsmall rest⟩
  | pair first second ihFirst ihSecond =>
      obtain ⟨middle, hfirst, hsecond⟩ := Pack.bind_ok hput
      exact (ihFirst htarget.1 hfirst).both (ihSecond htarget.2 hsecond)
  | vector elem ih =>
      obtain rfl : target = [] := htarget
      have htrip := container_roundTrip (fun _ _ _ => ih (fresh_fresh elem)) hput
        (fun vec tmp => vec ++ [tmp]) []
      rwa [foldl_push_back, List.nil_append] at htrip
  | set less elem ih =>
      obtain rfl : target = .empty := htarget
      have htrip := container_roundTrip (fun _ _ _ => ih (fresh_fresh elem)) hput
        SortedSet.insert (.empty : SortedSet less)
      rwa [SortedSet.foldl_insert_empty] at htrip
  | map less key mapped ihKey ihMapped =>
      obtain rfl : target = .empty := htarget
      have hentry : ∀ entry p q, putBoth key.put mapped.put entry p = .ok q →
          RoundTrip (popBoth (key.pop key.fresh) (mapped.pop mapped.fresh)) entry p q := by
        intro entry p q hentry
        obtain ⟨middle, hkey, hmapped⟩ := Pack.bind_ok hentry
        exact (ihKey (fresh_fresh key) hkey).both (ihMapped (fresh_fresh mapped) hmapped)
      have htrip := container_roundTrip hentry hput SortedSet.insert
        (.empty : SortedMap less _)
      rwa [SortedSet.foldl_insert_empty] at htrip
  | record view fields ih =>
      have htrip := (ih htarget hput).convert view.symm
      rwa [Equiv.symm_apply_apply] at htrip

end Marshal

/-! ## The bytes of a value -/

namespace Marshal

/-- What stands in a packet for the elements of a container. -/
def packedContainer {Elem : Type} (packed : Elem → List UInt8) (elems : List Elem) : List UInt8 :=
  leBytes 4 (UInt32.ofNat elems.length).toNat ++ elems.flatMap packed

/-- What stands in a packet for a value. -/
def packed {Value : Type} : Marshal Value → Value → List UInt8
  | bool, sign => [if sign then 1 else 0]
  | uint8, i8 => [i8]
  | uint16, i16 => leBytes 2 i16.toNat
  | uint32, i32 => leBytes 4 i32.toNat
  | uint64, i64 => leBytes 8 i64.toNat
  | int32, i32 => leBytes 4 i32.toUInt32.toNat
  | int64, i64 => leBytes 8 i64.toUInt64.toNat
  | varstr, str => leBytes 2 str.length ++ str
  | varstr32, str => leBytes 4 str.length ++ str
  | pair first second, value => first.packed value.1 ++ second.packed value.2
  | vector elem, vec => packedContainer elem.packed vec
  | set _ elem, elems => packedContainer elem.packed elems.elems
  | map _ key value, entries =>
      packedContainer (fun entry => key.packed entry.1 ++ value.packed entry.2) entries.elems
  | record view fields, value => fields.packed (view value)

theorem marshalContainer_packed {Elem : Type} (put : Elem → Pack → Except PackError Pack)
    {packed : Elem → List UInt8}
    (helem : ∀ elem p q, put elem p = .ok q → Pack.Wrote p q (packed elem)) {elems : List Elem}
    {p q : Pack} (hput : marshalContainer put elems p = .ok q) :
    Pack.Wrote p q (packedContainer packed elems) := by
  obtain ⟨counted, hcount, hloop⟩ := Pack.bind_ok hput
  have hwrote : Pack.Wrote counted q (elems.flatMap packed) := by
    clear hcount hput
    induction elems generalizing counted with
    | nil =>
        cases hloop
        exact Pack.Wrote.refl _
    | cons elem elems ih =>
        rw [List.foldlM_cons] at hloop
        obtain ⟨middle, hfirst, hrest⟩ := Pack.bind_ok hloop
        rw [List.flatMap_cons]
        exact (helem elem counted middle hfirst).trans (ih middle hrest)
  exact (Pack.push_ok hcount).trans hwrote

/-- A packet that took a value has its bytes at the end. -/
theorem put_packed {Value : Type} (m : Marshal Value) {value : Value} {p q : Pack}
    (hput : m.put value p = .ok q) : Pack.Wrote p q (m.packed value) := by
  induction m generalizing p q with
  | bool | uint8 | uint16 | uint32 | uint64 | int32 | int64 => exact Pack.push_ok hput
  | varstr => exact (Pack.pushVarstr_ok hput).2
  | varstr32 => exact (Pack.pushVarstr32_ok hput).2
  | pair first second ihFirst ihSecond =>
      obtain ⟨middle, hfirst, hsecond⟩ := Pack.bind_ok hput
      exact (ihFirst hfirst).trans (ihSecond hsecond)
  | vector elem ih => exact marshalContainer_packed elem.put (fun _ _ _ => ih) hput
  | set less elem ih => exact marshalContainer_packed elem.put (fun _ _ _ => ih) hput
  | map less key mapped ihKey ihMapped =>
      refine marshalContainer_packed (putBoth key.put mapped.put) (fun entry p q hentry => ?_) hput
      obtain ⟨middle, hkey, hmapped⟩ := Pack.bind_ok hentry
      exact (ihKey hkey).trans (ihMapped hmapped)
  | record view fields ih => exact ih hput

end Marshal

/-- Whatever a value's marshalling wrote behind the old end of a packet, with
any bytes following, unmarshals into a fresh target to the same value and
leaves the cursor at the bytes that follow. -/
theorem unpack_pack {Value : Type} (m : Marshal Value) (value target : Value) (p q : Pack)
    (htarget : m.Fresh target) (hput : m.put value p = .ok q) (rest : List UInt8) :
    m.pop target (q.data.drop p.size ++ rest) = .ok (value, rest) := by
  obtain ⟨bytes, _, hwrote, hpop⟩ := m.put_roundTrip htarget hput
  rw [hwrote.drop]
  exact hpop rest

/-- A vector of pairs of a number and a string, in an empty packet. -/
theorem unpack_pack_vector :
    ∃ p q, Pack.new (.init fun _ => some fun _ => 0) 0 = .ok p ∧
      (Marshal.vector (.pair .uint16 .varstr)).put [(7, [1, 2]), (8, [])] p = .ok q ∧
      (Marshal.vector (.pair .uint16 .varstr)).pop [] (q.data.drop p.size ++ [5]) =
        .ok ([(7, [1, 2]), (8, [])], [5]) := by
  refine ⟨_, _, rfl, rfl, ?_⟩
  exact unpack_pack (.vector (.pair .uint16 .varstr)) [(7, [1, 2]), (8, [])] [] _ _ rfl rfl [5]

end ServiceFrame
