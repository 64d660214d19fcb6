import ServiceFrame.Common.Marshal

/-! # Versioned envelopes

`Marshallable2` of `common/packet.h`. The payload of a class stands behind its own
length, which is written once the payload is there. A reader gets a cursor of its own on
the payload, so that readers of other versions leave the packet at the same place.
-/

namespace ServiceFrame

open Foundation

/-- A class that derives from `Marshallable2`. What `marshal2` writes, `unmarshal2` makes
the same value of; it need not read all of it. -/
structure Marshallable2 (Value : Type) where
  marshal2 : Value → Pack → Except PackError Pack
  unmarshal2 : Value → Unpack → Except UnpackError (Value × Unpack)
  /-- A target as the class wants it, and the one its constructor makes. -/
  Fresh : Value → Prop
  fresh : Value
  fresh_fresh : Fresh fresh
  restores : ∀ {value target p q}, Fresh target → marshal2 value p = .ok q →
    ∃ payload left, Pack.Wrote p q payload ∧ unmarshal2 target payload = .ok (value, left)

namespace Marshallable2

/-- `marshal(pk)`, around what `marshal2` does. -/
def marshal (marshal2 : Pack → Except PackError Pack) (p : Pack) : Except PackError Pack :=
  let pos := p.size
  (p.pushUint32 0).bind fun q => (marshal2 q).bind fun r =>
    let len := UInt32.ofNat (r.size - pos - 4)
    r.replaceOffsetUint32 pos len

/-- `unmarshal(up)`, around what `unmarshal2` does. -/
def unmarshal {Value : Type} (unmarshal2 : Unpack → Except UnpackError (Value × Unpack))
    (up : Unpack) : Except UnpackError (Value × Unpack) :=
  up.popUint32.bind fun (len, rest) =>
    let len := if len.toNat > rest.length then rest.length else len.toNat
    (rest.popFetchPtr len).bind fun (inner, rest) =>
      (unmarshal2 inner).bind fun (value, _) => .ok (value, rest)

/-- The length that stands in front, and the bytes that are there of it. -/
def declared (up : Unpack) : Nat := leNat (up.take 4)

def payload (up : Unpack) : Unpack := (up.drop 4).take (declared up)

variable {Value : Type}

/-- What the reader makes of the payload, at the place behind it. -/
theorem unmarshal_eq (unmarshal2 : Unpack → Except UnpackError (Value × Unpack)) {up : Unpack}
    (hup : 4 ≤ up.length) :
    unmarshal unmarshal2 up = (unmarshal2 (payload up)).bind fun (value, _) =>
      .ok (value, up.drop (4 + min (declared up) (up.length - 4))) := by
  have hdeclared : declared up < 2 ^ 32 := by
    have hnumber := leNat_lt (up.take 4)
    rw [List.length_take, Nat.min_eq_left hup] at hnumber
    exact hnumber.trans_eq (by norm_num)
  have hlen : (if declared up > (up.drop 4).length then (up.drop 4).length else declared up) =
      min (declared up) (up.length - 4) := by
    rw [List.length_drop]
    split
    next hmore => exact (Nat.min_eq_right (Nat.le_of_lt hmore)).symm
    next hless => exact (Nat.min_eq_left (Nat.le_of_not_lt hless)).symm
  have hpayload : (up.drop 4).take (min (declared up) (up.length - 4)) = payload up := by
    rw [payload, ← List.length_drop, ← List.take_eq_take_min]
  have hfetch : Unpack.popFetchPtr (up.drop 4) (min (declared up) (up.length - 4)) =
      .ok (payload up, up.drop (4 + min (declared up) (up.length - 4))) := by
    rw [Unpack.popFetchPtr, if_neg (by rw [List.length_drop]; omega), hpayload, List.drop_drop]
  have hread : (Unpack.xntoh (UInt32.ofNat (leNat (up.take 4)))).toNat = declared up :=
    UInt32.toNat_ofNat_of_lt' hdeclared
  rw [unmarshal, Unpack.popUint32_ok hup]
  simp only [Except.bind, hread, hlen, hfetch]

/-- The length in front is that of what `marshal2` wrote behind it. -/
theorem marshal_ok {marshal2 : Pack → Except PackError Pack} {p q : Pack}
    (hput : marshal marshal2 p = .ok q) :
    ∃ start final, marshal2 start = .ok final ∧ ∀ written, Pack.Wrote start final written →
      Pack.Wrote p q (leBytes 4 written.length ++ written) := by
  obtain ⟨start, hcount, hput⟩ := Pack.bind_ok hput
  obtain ⟨final, hmarshal2, hput⟩ := Pack.bind_ok hput
  refine ⟨start, final, hmarshal2, fun written hwritten => ?_⟩
  have hstart := Pack.push_ok hcount
  have hfinal := hstart.trans hwritten
  obtain ⟨hoffset, hdata⟩ := Pack.replaceOffset_ok hput
  refine ⟨hoffset.trans hfinal.1, ?_⟩
  have hsize : final.size - p.size - 4 = written.length := by
    have hlength := congrArg List.length hfinal.2
    simp only [Pack.length_data, List.length_append, length_leBytes] at hlength
    omega
  have hsmall : written.length < 2 ^ 32 := lt_of_le_of_lt hwritten.length_le (by decide)
  have hlen : (Pack.xhton (UInt32.ofNat written.length)).toNat = written.length :=
    UInt32.toNat_ofNat_of_lt' hsmall
  -- the four bytes kept for the length are the ones that are replaced
  rw [hdata, hfinal.2, hsize, hlen, overwrite_append _ p.length_data.symm, length_leBytes,
    List.drop_left' (length_leBytes 4 _), List.append_assoc]

theorem unmarshal_append (unmarshal2 : Unpack → Except UnpackError (Value × Unpack))
    {written rest : List UInt8} (hsmall : written.length < 2 ^ 32) :
    unmarshal unmarshal2 (leBytes 4 written.length ++ written ++ rest) =
      (unmarshal2 written).bind fun (value, _) => .ok (value, rest) := by
  have hup : 4 ≤ (leBytes 4 written.length ++ written ++ rest).length := by
    simp only [List.length_append, length_leBytes]
    omega
  have hdeclared : declared (leBytes 4 written.length ++ written ++ rest) = written.length := by
    rw [declared, List.append_assoc, List.take_left' (length_leBytes 4 _),
      leNat_leBytes (by omega)]
  have hpayload : payload (leBytes 4 written.length ++ written ++ rest) = written := by
    rw [payload, hdeclared, List.append_assoc, List.drop_left' (length_leBytes 4 _),
      List.take_left]
  have hdrop : (leBytes 4 written.length ++ written ++ rest).drop (4 +
      min written.length ((leBytes 4 written.length ++ written ++ rest).length - 4)) = rest := by
    apply List.drop_left'
    simp only [List.length_append, length_leBytes]
    omega
  rw [unmarshal_eq unmarshal2 hup, hdeclared, hpayload, hdrop]

/-- An envelope comes back wherever it is put. -/
theorem roundTrip (c : Marshallable2 Value) {value target : Value} {p q : Pack}
    (htarget : c.Fresh target) (hput : marshal (c.marshal2 value) p = .ok q) :
    Marshal.RoundTrip (unmarshal (c.unmarshal2 target)) value p q := by
  obtain ⟨start, final, hmarshal2, hwrote⟩ := marshal_ok hput
  obtain ⟨written, left, hwritten, hunmarshal2⟩ := c.restores htarget hmarshal2
  have hsmall : written.length < 2 ^ 32 := lt_of_le_of_lt hwritten.length_le (by decide)
  refine ⟨_, by simp [leBytes], hwrote written hwritten, fun rest => ?_⟩
  rw [unmarshal_append _ hsmall, hunmarshal2]
  rfl

end Marshallable2

/-! ## Envelopes in envelopes -/

/-- What a `marshal2` or a message is made of: fields without envelopes, envelopes, and these
next to each other or in containers. -/
inductive Layout : Type → Type 1 where
  | plain {Value : Type} (m : Marshal Value) : Layout Value
  | envelope {Value : Type} (c : Marshallable2 Value) : Layout Value
  | pair {First Second : Type} (first : Layout First) (second : Layout Second) :
      Layout (First × Second)
  | vector {Elem : Type} (elem : Layout Elem) : Layout (List Elem)
  | map {Key Value : Type} (less : Less Key) (key : Marshal Key) (value : Layout Value) :
      Layout (SortedMap less Value)
  | record {Fields Record : Type} (view : Record ≃ Fields) (fields : Layout Fields) : Layout Record

namespace Layout

def put {Value : Type} : Layout Value → Value → Pack → Except PackError Pack
  | plain m, value, p => m.put value p
  | envelope c, value, p => Marshallable2.marshal (c.marshal2 value) p
  | pair first second, value, p => Marshal.putBoth first.put second.put value p
  | vector elem, vec, p => Marshal.marshalContainer elem.put vec p
  | map _ key value, entries, p =>
      Marshal.marshalContainer (Marshal.putBoth key.put value.put) entries.elems p
  | record view fields, value, p => fields.put (view value) p

def fresh {Value : Type} : Layout Value → Value
  | plain m => m.fresh
  | envelope c => c.fresh
  | pair first second => (first.fresh, second.fresh)
  | vector _ => []
  | map _ _ _ => .empty
  | record view fields => view.symm fields.fresh

def Fresh {Value : Type} : Layout Value → Value → Prop
  | plain m, target => m.Fresh target
  | envelope c, target => c.Fresh target
  | pair first second, target => first.Fresh target.1 ∧ second.Fresh target.2
  | vector _, target => target = []
  | map _ _ _, target => target = .empty
  | record view fields, target => fields.Fresh (view target)

def pop {Value : Type} : Layout Value → Value → Unpack → Except UnpackError (Value × Unpack)
  | plain m, target, up => m.pop target up
  | envelope c, target, up => Marshallable2.unmarshal (c.unmarshal2 target) up
  | pair first second, target, up =>
      Marshal.popBoth (first.pop target.1) (second.pop target.2) up
  | vector elem, target, up =>
      Marshal.unmarshalContainer (elem.pop elem.fresh) (fun vec tmp => vec ++ [tmp]) target up
  | map _ key value, target, up =>
      Marshal.unmarshalContainer (Marshal.popBoth (key.pop key.fresh) (value.pop value.fresh))
        SortedSet.insert target up
  | record view fields, target, up => Marshal.popAs view.symm (fields.pop (view target)) up

theorem fresh_fresh {Value : Type} (layout : Layout Value) : layout.Fresh layout.fresh := by
  induction layout with
  | plain m => exact m.fresh_fresh
  | envelope c => exact c.fresh_fresh
  | pair first second ihFirst ihSecond => exact ⟨ihFirst, ihSecond⟩
  | vector elem _ => rfl
  | map less key value _ => rfl
  | record view fields ih => simpa only [Fresh, fresh, Equiv.apply_symm_apply] using ih

theorem put_roundTrip {Value : Type} (layout : Layout Value) {value target : Value} {p q : Pack}
    (htarget : layout.Fresh target) (hput : layout.put value p = .ok q) :
    Marshal.RoundTrip (layout.pop target) value p q := by
  induction layout generalizing p q with
  | plain m => exact m.put_roundTrip htarget hput
  | envelope c => exact c.roundTrip htarget hput
  | pair first second ihFirst ihSecond =>
      obtain ⟨middle, hfirst, hsecond⟩ := Pack.bind_ok hput
      exact (ihFirst htarget.1 hfirst).both (ihSecond htarget.2 hsecond)
  | vector elem ih =>
      obtain rfl : target = [] := htarget
      have htrip := Marshal.container_roundTrip (fun _ _ _ => ih elem.fresh_fresh) hput
        (fun vec tmp => vec ++ [tmp]) []
      rwa [Marshal.foldl_push_back, List.nil_append] at htrip
  | map less key mapped ih =>
      obtain rfl : target = .empty := htarget
      have hentry : ∀ entry p q, Marshal.putBoth key.put mapped.put entry p = .ok q →
          Marshal.RoundTrip (Marshal.popBoth (key.pop key.fresh) (mapped.pop mapped.fresh))
            entry p q := by
        intro entry p q hentry
        obtain ⟨middle, hkey, hmapped⟩ := Pack.bind_ok hentry
        exact (key.put_roundTrip key.fresh_fresh hkey).both (ih mapped.fresh_fresh hmapped)
      have htrip := Marshal.container_roundTrip hentry hput SortedSet.insert
        (.empty : SortedMap less _)
      rwa [SortedSet.foldl_insert_empty] at htrip
  | record view fields ih =>
      have htrip := (ih htarget hput).convert view.symm
      rwa [Equiv.symm_apply_apply] at htrip

/-- The class whose payload has this layout; its envelopes may be nested in it. -/
def toMarshallable2 {Value : Type} (layout : Layout Value) : Marshallable2 Value where
  marshal2 := layout.put
  unmarshal2 := layout.pop
  Fresh := layout.Fresh
  fresh := layout.fresh
  fresh_fresh := layout.fresh_fresh
  restores htarget hput := by
    obtain ⟨written, -, hwrote, hpop⟩ := layout.put_roundTrip htarget hput
    have hall := hpop []
    rw [List.append_nil] at hall
    exact ⟨written, [], hwrote, hall⟩

end Layout

namespace Marshallable2

variable {Value : Type} {unmarshal2 : Unpack → Except UnpackError (Value × Unpack)}

theorem unmarshal_ok_iff {up rest : Unpack} {value : Value} :
    unmarshal unmarshal2 up = .ok (value, rest) ↔
      4 ≤ up.length ∧ (∃ left, unmarshal2 (payload up) = .ok (value, left)) ∧
        rest = up.drop (4 + min (declared up) (up.length - 4)) := by
  constructor
  · intro hread
    have hup : 4 ≤ up.length := by
      by_contra hshort
      rw [unmarshal, Unpack.popUint32, if_pos (Nat.lt_of_not_le hshort)] at hread
      cases hread
    rw [unmarshal_eq unmarshal2 hup] at hread
    obtain ⟨⟨found, left⟩, hpayload, hfound⟩ := Pack.bind_ok hread
    cases hfound
    exact ⟨hup, ⟨left, hpayload⟩, rfl⟩
  · rintro ⟨hup, ⟨left, hpayload⟩, rfl⟩
    rw [unmarshal_eq unmarshal2 hup, hpayload]
    rfl

/-- Packets that agree as far as the declared length goes have one payload. -/
theorem payload_congr {up other : Unpack}
    (hsame : up.take (4 + declared up) = other.take (4 + declared up)) :
    declared other = declared up ∧ payload other = payload up := by
  have hhead : other.take 4 = up.take 4 := by
    have htake := congrArg (List.take 4) hsame
    rwa [List.take_take, List.take_take, Nat.min_eq_left (Nat.le_add_right _ _), eq_comm] at htake
  have hdeclared : declared other = declared up := by rw [declared, hhead, declared]
  refine ⟨hdeclared, ?_⟩
  have hdrop := congrArg (List.drop 4) hsame
  rw [List.drop_take, List.drop_take, Nat.add_sub_cancel_left] at hdrop
  rw [payload, payload, hdeclared, hdrop]

/-- Envelopes come back at every depth and at every place of a packet. Whoever reads one
leaves the packet right behind its payload, and sees nothing of what follows. -/
theorem envelope_exact (Value : Type) :
    (∀ (layout : Layout Value) (value target : Value) (p q : Pack), layout.Fresh target →
      layout.put value p = .ok q →
        ∀ rest, layout.pop target (q.data.drop p.size ++ rest) = .ok (value, rest)) ∧
    (∀ (unmarshal2 : Unpack → Except UnpackError (Value × Unpack)) (up : Unpack),
      4 ≤ up.length → ∀ value left, unmarshal2 (payload up) = .ok (value, left) →
        unmarshal unmarshal2 up =
          .ok (value, up.drop (4 + min (declared up) (up.length - 4)))) ∧
    (∀ (unmarshal2 : Unpack → Except UnpackError (Value × Unpack)) (up rest : Unpack)
        (value : Value), unmarshal unmarshal2 up = .ok (value, rest) →
        rest = up.drop (4 + min (declared up) (up.length - 4)) ∧
        ∀ other, up.take (4 + declared up) = other.take (4 + declared up) →
          ∃ rest, unmarshal unmarshal2 other = .ok (value, rest)) ∧
    (∀ (Written : Type) (writer : Marshallable2 Written) (written : Written) (p q : Pack),
      marshal (writer.marshal2 written) p = .ok q →
        ∀ unmarshal2 (value : Value) (following rest : Unpack),
          unmarshal unmarshal2 (q.data.drop p.size ++ following) = .ok (value, rest) →
            rest = following) := by
  refine ⟨?_, ?_, ?_, ?_⟩
  · intro layout value target p q htarget hput rest
    obtain ⟨bytes, -, hwrote, hpop⟩ := layout.put_roundTrip htarget hput
    rw [hwrote.drop]
    exact hpop rest
  · intro unmarshal2 up hup value left hpayload
    exact unmarshal_ok_iff.mpr ⟨hup, ⟨left, hpayload⟩, rfl⟩
  · intro unmarshal2 up rest value hread
    obtain ⟨hup, ⟨left, hpayload⟩, hrest⟩ := unmarshal_ok_iff.mp hread
    refine ⟨hrest, fun other hsame => ?_⟩
    obtain ⟨-, hpayload'⟩ := payload_congr hsame
    -- the agreement covers the length field too
    have hother : 4 ≤ other.length := by
      have hlength := congrArg List.length hsame
      simp only [List.length_take] at hlength
      omega
    exact ⟨_, unmarshal_ok_iff.mpr ⟨hother, ⟨left, hpayload'.symm ▸ hpayload⟩, rfl⟩⟩
  · intro Written writer written p q hput unmarshal2 value following rest hread
    obtain ⟨start, final, hmarshal2, hwrote⟩ := marshal_ok hput
    obtain ⟨bytes, -, hwritten, -⟩ := writer.restores writer.fresh_fresh hmarshal2
    -- no packet holds a payload whose length does not fit the field
    have hsmall : bytes.length < 2 ^ 32 := lt_of_le_of_lt hwritten.length_le (by decide)
    rw [(hwrote bytes hwritten).drop, unmarshal_append unmarshal2 hsmall] at hread
    obtain ⟨⟨found, left⟩, -, hfound⟩ := Pack.bind_ok hread
    cases hfound
    rfl

/-- An envelope with a number and a second envelope in it, and a field behind. -/
def twoLevels : Layout ((UInt16 × List UInt8) × UInt8) :=
  let inner : Layout (List UInt8) := .envelope (Layout.plain (.vector .uint8)).toMarshallable2
  .pair (.envelope (Layout.pair (.plain .uint16) inner).toMarshallable2) (.plain .uint8)

theorem envelope_exact_twoLevels :
    ∃ p q, Pack.new (.init fun _ => some fun _ => 0) 0 = .ok p ∧
      twoLevels.put ((7, [1, 2]), 9) p = .ok q ∧
      twoLevels.pop ((0, []), 0) (q.data.drop p.size ++ [5]) = .ok (((7, [1, 2]), 9), [5]) := by
  obtain ⟨p, q, hnew, hput⟩ : ∃ p q, Pack.new (.init fun _ => some fun _ => 0) 0 = .ok p ∧
      twoLevels.put ((7, [1, 2]), 9) p = .ok q := ⟨_, _, rfl, rfl⟩
  have hfresh : twoLevels.Fresh ((0, []), 0) := ⟨⟨trivial, rfl⟩, trivial⟩
  exact ⟨p, q, hnew, hput, (envelope_exact _).1 twoLevels _ _ p q hfresh hput [5]⟩

end Marshallable2

end ServiceFrame
