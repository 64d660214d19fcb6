import ServiceFrame.Foundation.CString

/-! # Domain names in URLs

`DomainName` of `server-lib`: the parts of a name, the root first, and a parameter. The
text is `leaf.root/param`. It is read by the last slash and the first dot of all of it.
-/

namespace ServiceFrame

open Foundation

/-! ## Searching a text -/

/-- `std::string::find_first_of(byte)`; none is `npos`. -/
def findFirstOf (text : List UInt8) (byte : UInt8) : Option Nat := text.findIdx? (· == byte)

/-- `std::string::find_last_of(byte)`. -/
def findLastOf (text : List UInt8) (byte : UInt8) : Option Nat :=
  (text.reverse.findIdx? (· == byte)).map fun behind => text.length - 1 - behind

/-- `std::string::substr(pos, count)`. -/
def substr (text : List UInt8) (pos count : Nat) : List UInt8 := (text.drop pos).take count

section Search

variable {byte : UInt8} {front behind : List UInt8}

theorem findFirstOf_of_notMem {text : List UInt8} (hout : byte ∉ text) :
    findFirstOf text byte = none := by
  rw [findFirstOf, List.findIdx?_eq_none_iff]
  intro other hmem
  exact beq_false_of_ne fun heq => hout (heq ▸ hmem)

theorem findFirstOf_append (hout : byte ∉ front) :
    findFirstOf (front ++ byte :: behind) byte = some front.length := by
  have hnone := findFirstOf_of_notMem hout
  unfold findFirstOf at hnone ⊢
  rw [List.findIdx?_append, hnone, List.findIdx?_cons]
  simp

theorem findLastOf_of_notMem {text : List UInt8} (hout : byte ∉ text) :
    findLastOf text byte = none := by
  have hnone := findFirstOf_of_notMem (mt List.mem_reverse.mp hout)
  rw [findFirstOf] at hnone
  rw [findLastOf, hnone]
  rfl

theorem findLastOf_append (hout : byte ∉ behind) :
    findLastOf (front ++ byte :: behind) byte = some front.length := by
  have hreverse : (front ++ byte :: behind).reverse = behind.reverse ++ byte :: front.reverse := by
    simp
  have hfirst : findFirstOf (behind.reverse ++ byte :: front.reverse) byte =
      some behind.reverse.length := findFirstOf_append (mt List.mem_reverse.mp hout)
  rw [findFirstOf] at hfirst
  rw [findLastOf, hreverse, hfirst]
  simp

end Search

/-! ## The names -/

structure DomainName where
  domains : List (List UInt8)
  param : List UInt8
deriving DecidableEq

namespace DomainName

/-- `'/'` -/
def slash : UInt8 := 47

/-- `'.'` -/
def dot : UInt8 := 46

/-- `SUFFIX_ROUTE`: `_r`. -/
def SUFFIX_ROUTE : List UInt8 := [95, 114]

def parse (query : List UInt8) : DomainName :=
  let param := match findLastOf query slash with
    | none => []
    | some pos => query.drop (pos + 1)
  let pos := (findLastOf query slash).getD query.length
  match findFirstOf query dot with
  | none => ⟨[substr query 0 pos], param⟩
  | some dpos =>
      let np := dpos + 1
      ⟨(if pos > np then [substr query np (pos - np)] else []) ++
        (if dpos > 0 then [substr query 0 dpos] else []), param⟩

def toDomain (s : List (List UInt8)) (suffix : List UInt8) : List UInt8 :=
  let ret := s.reverse.foldl (fun ret it => ret ++ it ++ [dot]) []
  if ret = [] then ret
  else if suffix = [] then ret.dropLast
  else ret ++ suffix

def toUrl (d : DomainName) : List UInt8 :=
  if d.param = [] then toDomain d.domains [] else toDomain d.domains [] ++ [slash] ++ d.param

def getRoot (d : DomainName) : List UInt8 := d.domains.head?.getD []

def getLeaf (d : DomainName) : List UInt8 := d.domains[1]?.getD []

/-- `sprintf("%u.%s/%u")`. -/
def uidFrom (uid serverId : UInt32) : List UInt8 :=
  decimal uid.toNat ++ [dot] ++ SUFFIX_ROUTE ++ [slash] ++ decimal serverId.toNat

/-- `atoi` gives no error, so a zero must be written as one. -/
def readNumber (text : List UInt8) : Bool × UInt32 :=
  let out := (atoi text).toUInt32
  (!(out = 0 && text ≠ decimal 0), out)

/-- The uid goes to `out`, which stays as it is when the name is no route. -/
def toUid (url : List UInt8) (out : UInt32) : Bool × UInt32 :=
  let dn := parse url
  if dn.getRoot = SUFFIX_ROUTE then readNumber dn.getLeaf else (false, out)

def getSid (url : List UInt8) : Bool × UInt32 := readNumber (parse url).param

/-! ## There and back -/

/-- The names that the text is meant for: one part without a dot, or two of which the leaf
has none; and no slash. -/
def WellFormed (d : DomainName) : Prop :=
  match d.domains with
  | [root] => root ≠ [] ∧ dot ∉ root ∧ slash ∉ root ∧ slash ∉ d.param
  | [root, leaf] =>
      root ≠ [] ∧ leaf ≠ [] ∧ dot ∉ leaf ∧ slash ∉ leaf ∧ slash ∉ root ∧ slash ∉ d.param
  | _ => False

instance (d : DomainName) : Decidable (WellFormed d) := by
  unfold WellFormed
  split <;> infer_instance

theorem toDomain_one {root : List UInt8} : toDomain [root] [] = root := by
  simp [toDomain]

theorem toDomain_two {root leaf : List UInt8} :
    toDomain [root, leaf] [] = leaf ++ dot :: root := by
  have hprinted : leaf ++ [dot] ++ root ++ [dot] ≠ [] := by simp
  have hret : [root, leaf].reverse.foldl (fun ret it => ret ++ it ++ [dot]) [] =
      leaf ++ [dot] ++ root ++ [dot] := rfl
  unfold toDomain
  dsimp only
  rw [hret, if_neg hprinted, if_pos rfl, List.dropLast_concat, List.append_assoc]
  rfl

/-- The text of a name, with the slash and the parameter when there is one. -/
def written (name param : List UInt8) : List UInt8 :=
  if param = [] then name else name ++ slash :: param

theorem toUrl_eq (d : DomainName) : d.toUrl = written (toDomain d.domains []) d.param := by
  unfold toUrl written
  split
  · rfl
  · simp

/-- The parameter is what stands behind the last slash. -/
theorem parse_written {name param : List UInt8} (hname : slash ∉ name) (hparam : slash ∉ param) :
    parse (written name param) =
      match findFirstOf (written name param) dot with
      | none => ⟨[substr (written name param) 0 name.length], param⟩
      | some dpos =>
          ⟨(if name.length > dpos + 1 then
              [substr (written name param) (dpos + 1) (name.length - (dpos + 1))] else []) ++
            (if dpos > 0 then [substr (written name param) 0 dpos] else []), param⟩ := by
  unfold parse
  by_cases hnone : param = []
  · subst hnone
    have hwritten : written name [] = name := if_pos rfl
    rw [hwritten, findLastOf_of_notMem hname]
    rfl
  · have hwritten : written name param = name ++ slash :: param := if_neg hnone
    rw [hwritten, findLastOf_append hparam]
    have hdrop : (name ++ slash :: param).drop (name.length + 1) = param := by
      rw [List.drop_append]
      simp
    dsimp only
    rw [hdrop]
    rfl

theorem substr_front (front behind : List UInt8) :
    substr (front ++ behind) 0 front.length = front := by
  rw [substr, List.drop_zero, List.take_left]

theorem written_append (name param : List UInt8) :
    ∃ behind, written name param = name ++ behind := by
  unfold written
  split
  · exact ⟨[], (List.append_nil name).symm⟩
  · exact ⟨slash :: param, rfl⟩

/-- Two parts are read back, whatever dots the root and the parameter have. -/
theorem parse_two {root leaf param : List UInt8} (hroot : root ≠ []) (hleaf : leaf ≠ [])
    (hdot : dot ∉ leaf) (hname : slash ∉ leaf ++ dot :: root) (hparam : slash ∉ param) :
    parse (written (leaf ++ dot :: root) param) = ⟨[root, leaf], param⟩ := by
  obtain ⟨behind, hwritten⟩ := written_append (leaf ++ dot :: root) param
  have hfirst : findFirstOf (written (leaf ++ dot :: root) param) dot = some leaf.length := by
    rw [hwritten, List.append_assoc]
    exact findFirstOf_append hdot
  have hroot' : 0 < root.length := List.length_pos_iff.mpr hroot
  have hleaf' : 0 < leaf.length := List.length_pos_iff.mpr hleaf
  have hlength : (leaf ++ dot :: root).length = leaf.length + 1 + root.length := by
    simp
    omega
  rw [parse_written hname hparam, hfirst]
  dsimp only
  rw [if_pos (by omega), if_pos hleaf', hlength, Nat.add_sub_cancel_left, hwritten]
  have hleaf'' : substr (leaf ++ dot :: root ++ behind) 0 leaf.length = leaf := by
    rw [List.append_assoc]
    exact substr_front _ _
  have hroot'' : substr (leaf ++ dot :: root ++ behind) (leaf.length + 1) root.length = root := by
    have hsplit : leaf ++ dot :: root ++ behind = leaf ++ [dot] ++ (root ++ behind) := by simp
    rw [hsplit, substr, List.drop_left' (by simp), List.take_left]
  rw [hleaf'', hroot'']
  rfl

/-- One part is read back when the parameter has no dot. -/
theorem parse_one {root param : List UInt8} (hdot : dot ∉ root) (hroot : slash ∉ root)
    (hparam : slash ∉ param) :
    parse (written root param) = ⟨[root], param⟩ ↔ dot ∉ param := by
  rw [parse_written hroot hparam]
  by_cases hout : dot ∉ param
  · have hall : dot ∉ written root param := by
      unfold written
      split
      · exact hdot
      · simp only [List.mem_append, List.mem_cons, not_or]
        exact ⟨hdot, by decide, hout⟩
    obtain ⟨behind, hwritten⟩ := written_append root param
    rw [findFirstOf_of_notMem hall]
    refine iff_of_true ?_ hout
    dsimp only
    rw [hwritten, substr_front]
  · -- the first dot is in the parameter, and all before it is taken for the leaf
    rw [not_not] at hout
    obtain ⟨before, behind, rfl, hbefore⟩ := List.eq_append_cons_of_mem hout
    have hwritten : written root (before ++ dot :: behind) =
        (root ++ slash :: before) ++ dot :: behind := by
      rw [written, if_neg (by simp)]
      simp
    have hfront : dot ∉ root ++ slash :: before := by
      simp only [List.mem_append, List.mem_cons, not_or]
      exact ⟨hdot, by decide, hbefore⟩
    have hlength : (root ++ slash :: before).length = root.length + 1 + before.length := by
      simp
      omega
    rw [hwritten, findFirstOf_append hfront]
    refine iff_of_false ?_ (not_not.mpr (by simp))
    dsimp only
    rw [if_neg (by omega), if_pos (by omega), substr_front, List.nil_append]
    intro heq
    have hroot' := congrArg (fun d : DomainName => d.domains.map List.length) heq
    simp only [List.map_cons, List.map_nil, List.cons.injEq, and_true] at hroot'
    omega

theorem uidFrom_eq (uid serverId : UInt32) :
    uidFrom uid serverId =
      written (decimal uid.toNat ++ dot :: SUFFIX_ROUTE) (decimal serverId.toNat) := by
  rw [uidFrom, written, if_neg (decimal_ne_nil _)]
  simp

/-- The text and its NUL fit into `char buf[30]`. -/
theorem uidFrom_fits (uid serverId : UInt32) : (uidFrom uid serverId).length < 30 := by
  have huid := length_decimal_le (show 0 < 10 by decide)
    (uid.toNat_lt.trans (show 2 ^ 32 < 10 ^ 10 by decide))
  have hserver := length_decimal_le (show 0 < 10 by decide)
    (serverId.toNat_lt.trans (show 2 ^ 32 < 10 ^ 10 by decide))
  simp only [uidFrom, SUFFIX_ROUTE, List.length_append, List.length_cons, List.length_nil]
  omega

theorem readNumber_decimal (value : UInt32) : readNumber (decimal value.toNat) = (true, value) := by
  unfold readNumber
  rw [atoi_decimal]
  by_cases hzero : value = 0
  · subst hzero
    rfl
  · simp [hzero]

/-- A name is read back from its text unless it has one part and a parameter with a dot;
and a route is read back with its uid and its server. -/
theorem parse_toUrl_iff (d : DomainName) (hformed : WellFormed d) (uid serverId out : UInt32) :
    (parse d.toUrl = d ↔ d.domains.length = 2 ∨ dot ∉ d.param) ∧
      toUid (uidFrom uid serverId) out = (true, uid) ∧
      getSid (uidFrom uid serverId) = (true, serverId) := by
  constructor
  · obtain ⟨domains, param⟩ := d
    rw [toUrl_eq]
    unfold WellFormed at hformed
    split at hformed
    next root hdomains =>
      obtain ⟨-, hdot, hroot, hparam⟩ := hformed
      dsimp only at hdomains hparam ⊢
      subst hdomains
      rw [toDomain_one, parse_one hdot hroot hparam]
      simp
    next root leaf hdomains =>
      obtain ⟨hroot, hleaf, hdot, hslash, hslash', hparam⟩ := hformed
      dsimp only at hdomains hparam ⊢
      subst hdomains
      have hname : slash ∉ leaf ++ dot :: root := by
        simp only [List.mem_append, List.mem_cons, not_or]
        exact ⟨hslash, by decide, hslash'⟩
      rw [toDomain_two, parse_two hroot hleaf hdot hname hparam]
      simp
    next => cases hformed
  · have hparse : parse (uidFrom uid serverId) =
        ⟨[SUFFIX_ROUTE, decimal uid.toNat], decimal serverId.toNat⟩ := by
      have hname : slash ∉ decimal uid.toNat ++ dot :: SUFFIX_ROUTE := by
        rw [List.mem_append, not_or]
        exact ⟨notMem_decimal rfl, by decide⟩
      rw [uidFrom_eq]
      exact parse_two (by decide) (decimal_ne_nil _) (notMem_decimal rfl) hname
        (notMem_decimal rfl)
    rw [toUid, getSid, hparse]
    exact ⟨readNumber_decimal uid, readNumber_decimal serverId⟩

theorem parse_toUrl_room : parse (toUrl ⟨[[97]], [98, 99]⟩) = ⟨[[97]], [98, 99]⟩ :=
  (parse_toUrl_iff ⟨[[97]], [98, 99]⟩ (by decide) 0 0 0).1.mpr (Or.inr (by decide))

/-- The text of the name `a` with the parameter `b.c` is read as the name `a/b` with the
parameter `b.c`. -/
theorem parse_toUrl_dotted : WellFormed ⟨[[97]], [98, dot, 99]⟩ ∧
    parse (toUrl ⟨[[97]], [98, dot, 99]⟩) = ⟨[[97, slash, 98]], [98, dot, 99]⟩ ∧
    parse (toUrl ⟨[[97]], [98, dot, 99]⟩) ≠ ⟨[[97]], [98, dot, 99]⟩ :=
  ⟨by decide, by decide, by decide⟩

end DomainName

end ServiceFrame
