import ServiceFrame.Common.Marshal
import ServiceFrame.Core.Sender
import ServiceFrame.Foundation.OrderedMap

/-! # The form map

`MfcAppcontext` of `core/corelib`. A class declares a static array of entries, one for each
`uri` that it handles: how the body is unpacked, and which member function is called. Adding
the array to a context registers a pointer to each entry, and writes the target into the
array itself, which all contexts share.
-/

namespace ServiceFrame

open Foundation

/-- Which arguments a member function has. -/
inductive FormProcType where
  | vv | vr | vc | vcr | vcc | vccr | vccra | vtc | vkc | vkcr | vk | vuc | vucr | vu | vsc | vpc
  | vupc | wcc | null | last
deriving DecidableEq

/-- `VoidFormHandle`, or `FormHandleT` for a class that can be unmarshalled. -/
inductive FormHandle (Cmd : Type) : Type 1 where
  | void
  | form {Message : Type} (marshal : Marshal Message) (cmd : Message → Cmd)

/-- `handlePacket(up)`: the command, when there is one, and what is left to unpack. -/
def FormHandle.handlePacket {Cmd : Type} (up : Unpack) :
    FormHandle Cmd → Except UnpackError (Option Cmd × Unpack)
  | .void => .ok (none, up)
  | .form marshal cmd =>
      (marshal.pop marshal.fresh up).map fun (obj, rest) => (some (cmd obj), rest)

structure FormEntry (Cmd Proc Target : Type) : Type 1 where
  uri : UInt32
  requestForm : Option (FormHandle Cmd)
  type : FormProcType
  proc : Proc
  target : Option Target

/-- `es[i].target = target`. -/
def FormEntry.setTarget {Cmd Proc Target : Type} (target : Option Target)
    (entry : FormEntry Cmd Proc Target) : FormEntry Cmd Proc Target :=
  { entry with target := target }

@[simp] theorem FormEntry.uri_setTarget {Cmd Proc Target : Type} (target : Option Target)
    (entry : FormEntry Cmd Proc Target) : (entry.setTarget target).uri = entry.uri := rfl

/-- The static arrays, and the form maps of the contexts: each entry of a map is the array and
the place of an entry in it. -/
structure FormMaps (Context Form Cmd Proc Target : Type) : Type 1 where
  forms : Form → List (FormEntry Cmd Proc Target)
  entries : Context → OrderedMap UInt32 (Form × Nat)

namespace FormMaps

variable {Context Form Cmd Proc Target : Type}

/-- The loop of `addEntry`, from the `i`th entry on. There is no result when the assertion
fails, or when the array has no end mark. -/
def addLoop (form : Form) (target : Option Target) :
    Nat → List (FormEntry Cmd Proc Target) → OrderedMap UInt32 (Form × Nat) →
      Option (List (FormEntry Cmd Proc Target) × OrderedMap UInt32 (Form × Nat))
  | _, [], _ => none
  | i, entry :: rest, entries =>
      if entry.uri = 0 then some (entry :: rest, entries)
      else if (entries.find entry.uri).isSome then none
      else
        (addLoop form target (i + 1) rest (entries.set entry.uri (form, i))).map
          fun (rest, entries) => (entry.setTarget target :: rest, entries)

/-- `addEntry(es, target, inf)`. -/
def addEntry [DecidableEq Context] [DecidableEq Form]
    (maps : FormMaps Context Form Cmd Proc Target) (context : Context) (form : Form)
    (target : Option Target) : Option (FormMaps Context Form Cmd Proc Target) :=
  (addLoop form target 0 (maps.forms form) (maps.entries context)).map fun (es, entries) =>
    { forms := Function.update maps.forms form es
      entries := Function.update maps.entries context entries }

def clear [DecidableEq Context] (maps : FormMaps Context Form Cmd Proc Target)
    (context : Context) : FormMaps Context Form Cmd Proc Target :=
  { maps with entries := Function.update maps.entries context .empty }

/-- `entries.find(uri)`, and the entry that the pointer leads to. -/
def find (maps : FormMaps Context Form Cmd Proc Target) (context : Context) (uri : UInt32) :
    Option (FormEntry Cmd Proc Target) :=
  ((maps.entries context).find uri).bind fun (form, i) => (maps.forms form)[i]?

inductive Event (Context Form Target : Type) where
  | addEntry (context : Context) (form : Form) (target : Option Target)
  | clear (context : Context)

def step [DecidableEq Context] [DecidableEq Form]
    (maps : FormMaps Context Form Cmd Proc Target) :
    Event Context Form Target → Option (FormMaps Context Form Cmd Proc Target)
  | .addEntry context form target => maps.addEntry context form target
  | .clear context => some (maps.clear context)

/-- The arrays as they are declared, and contexts to which nothing was added. -/
def start (forms : Form → List (FormEntry Cmd Proc Target)) :
    FormMaps Context Form Cmd Proc Target := ⟨forms, fun _ => .empty⟩

/-! ## What is registered -/

/-- The entries in front of the end mark. -/
def declared (es : List (FormEntry Cmd Proc Target)) : List (FormEntry Cmd Proc Target) :=
  es.takeWhile fun entry => entry.uri != 0

/-- The array, once it was added with a target. -/
def retarget (target : Option Target) :
    List (FormEntry Cmd Proc Target) → List (FormEntry Cmd Proc Target)
  | [] => []
  | entry :: rest =>
      if entry.uri = 0 then entry :: rest
      else entry.setTarget target :: retarget target rest

section Arrays

variable {target other : Option Target} {entry : FormEntry Cmd Proc Target}
  {es rest : List (FormEntry Cmd Proc Target)}

theorem declared_mark (hmark : entry.uri = 0) : declared (entry :: rest) = [] := by
  simp [declared, hmark]

theorem declared_cons (hmark : entry.uri ≠ 0) :
    declared (entry :: rest) = entry :: declared rest := by
  simp [declared, hmark]

theorem declared_retarget (target : Option Target) (es : List (FormEntry Cmd Proc Target)) :
    declared (retarget target es) = (declared es).map (FormEntry.setTarget target) := by
  induction es with
  | nil => rfl
  | cons entry rest ih =>
      rw [retarget]
      split
      next hmark => rw [declared_mark hmark, List.map_nil]
      next hmark =>
        rw [declared_cons (by simpa using hmark), ih, declared_cons hmark, List.map_cons]

theorem retarget_retarget (target other : Option Target)
    (es : List (FormEntry Cmd Proc Target)) :
    retarget target (retarget other es) = retarget target es := by
  induction es with
  | nil => rfl
  | cons entry rest ih =>
      by_cases hmark : entry.uri = 0
      · rw [retarget, if_pos hmark]
      · simp only [retarget, if_neg hmark, FormEntry.uri_setTarget, ih]
        rfl

theorem retarget_ended (target : Option Target) (es : List (FormEntry Cmd Proc Target)) :
    (∃ entry ∈ retarget target es, entry.uri = 0) ↔ ∃ entry ∈ es, entry.uri = 0 := by
  induction es with
  | nil => rfl
  | cons entry rest ih =>
      rw [retarget]
      split
      · rfl
      · simp only [List.mem_cons, exists_eq_or_imp, FormEntry.uri_setTarget, ih]

/-- A place in front of the end mark. -/
theorem getElem?_of_declared {i : Nat} (hdeclared : (declared es)[i]? = some entry) :
    es[i]? = some entry := by
  obtain ⟨hlt, hget⟩ := List.getElem?_eq_some_iff.mp hdeclared
  have hstart : declared es <+: es := List.takeWhile_prefix _
  rw [List.getElem?_eq_some_iff]
  exact ⟨hlt.trans_le hstart.length_le, (hstart.getElem hlt).symm.trans hget⟩

end Arrays

section Loop

variable {form : Form} {target : Option Target} {entries final : OrderedMap UInt32 (Form × Nat)}
  {es after : List (FormEntry Cmd Proc Target)}

/-- What a whole loop did. -/
theorem addLoop_some {i : Nat} (hadd : addLoop form target i es entries = some (after, final)) :
    after = retarget target es ∧
    ∀ uri ref, final.find uri = some ref ↔
      entries.find uri = some ref ∨
        ∃ k entry, (declared es)[k]? = some entry ∧ entry.uri = uri ∧ ref = (form, i + k) := by
  induction es generalizing i entries after with
  | nil => cases hadd
  | cons entry rest ih =>
      rw [addLoop] at hadd
      split at hadd
      next hmark =>
        cases hadd
        rw [retarget, if_pos hmark, declared_mark hmark]
        exact ⟨rfl, fun uri ref => by simp⟩
      next hmark =>
        split at hadd
        · cases hadd
        next hfree =>
          obtain ⟨⟨more, last⟩, hrest, heq⟩ := Option.map_eq_some_iff.mp hadd
          cases heq
          obtain ⟨rfl, hfinal⟩ := ih hrest
          rw [retarget, if_neg hmark, declared_cons hmark]
          refine ⟨rfl, fun uri ref => ?_⟩
          rw [hfinal, OrderedMap.find_set, Function.update_apply]
          simp only [Option.not_isSome_iff_eq_none] at hfree
          constructor
          · rintro (hset | ⟨k, one, hone, huri, rfl⟩)
            · split at hset
              next hsame =>
                cases hset
                exact Or.inr ⟨0, entry, rfl, hsame.symm, rfl⟩
              next => exact Or.inl hset
            · exact Or.inr ⟨k + 1, one, hone, huri, by rw [Nat.add_right_comm, Nat.add_assoc]⟩
          · rintro (hold | ⟨k, one, hone, huri, rfl⟩)
            · refine Or.inl ?_
              rw [if_neg, hold]
              rintro rfl
              rw [hfree] at hold
              cases hold
            · cases k with
              | zero =>
                  cases hone
                  exact Or.inl (by rw [if_pos huri.symm]; rfl)
              | succ k =>
                  exact Or.inr ⟨k, one, hone, huri, by rw [Nat.add_right_comm, Nat.add_assoc]⟩

/-- The loop goes through when the array has an end mark, and no `uri` is taken. -/
theorem addLoop_isSome_iff {i : Nat} :
    (addLoop form target i es entries).isSome = true ↔
      (∃ entry ∈ es, entry.uri = 0) ∧ ((declared es).map FormEntry.uri).Nodup ∧
        ∀ entry ∈ declared es, entries.find entry.uri = none := by
  induction es generalizing i entries with
  | nil => simp [addLoop]
  | cons entry rest ih =>
      rw [addLoop]
      by_cases hmark : entry.uri = 0
      · rw [if_pos hmark, declared_mark hmark]
        simp [hmark]
      · rw [if_neg hmark, declared_cons hmark]
        cases hfree : entries.find entry.uri with
        | some ref => simp [hfree]
        | none =>
            simp only [Option.isSome_none, Bool.false_eq_true, if_false, Option.isSome_map, ih,
              OrderedMap.find_set, Function.update_apply, List.mem_cons, exists_eq_or_imp, hmark,
              false_or, List.map_cons, List.nodup_cons, List.mem_map, forall_eq_or_imp, hfree,
              true_and]
            constructor
            · rintro ⟨hended, hnodup, hall⟩
              refine ⟨hended, ⟨?_, hnodup⟩, fun one hone => ?_⟩
              · rintro ⟨one, hone, huri⟩
                have hthis := hall one hone
                rw [if_pos huri] at hthis
                cases hthis
              · have hthis := hall one hone
                split at hthis
                · cases hthis
                · exact hthis
            · rintro ⟨hended, ⟨hnew, hnodup⟩, hall⟩
              refine ⟨hended, hnodup, fun one hone => ?_⟩
              rw [if_neg fun huri => hnew ⟨one, hone, huri⟩]
              exact hall one hone

end Loop

/-! ### Runs -/

section Runs

variable [DecidableEq Context] [DecidableEq Form]

/-- The forms that a context added since it was last cleared. -/
def Event.onAdded (context : Context) (added : List Form) : Event Context Form Target → List Form
  | .addEntry other form _ => if other = context then added ++ [form] else added
  | .clear other => if other = context then [] else added

/-- The target that a form was last added with, by whatever context. -/
def Event.onTarget (form : Form) (last : Option (Option Target)) :
    Event Context Form Target → Option (Option Target)
  | .addEntry _ other target => if other = form then some target else last
  | .clear _ => last

def added (context : Context) (events : List (Event Context Form Target)) : List Form :=
  events.foldl (Event.onAdded context) []

def lastTarget (form : Form) (events : List (Event Context Form Target)) :
    Option (Option Target) :=
  events.foldl (Event.onTarget form) none

variable (forms : Form → List (FormEntry Cmd Proc Target))

/-- An array is as it was declared until it is added; a map leads to the declared entries of
the forms that its context added. -/
structure Registered (events : List (Event Context Form Target))
    (maps : FormMaps Context Form Cmd Proc Target) : Prop where
  forms_eq : ∀ form, maps.forms form =
    match lastTarget form events with
    | none => forms form
    | some target => retarget target (forms form)
  find_iff : ∀ context uri form i, (maps.entries context).find uri = some (form, i) ↔
    form ∈ added context events ∧
      ∃ entry, (declared (forms form))[i]? = some entry ∧ entry.uri = uri
  target_isSome : ∀ context, ∀ form ∈ added context events, (lastTarget form events).isSome

variable {forms} {maps next : FormMaps Context Form Cmd Proc Target}
  {events : List (Event Context Form Target)}

theorem start_registered : Registered forms ([] : List (Event Context Form Target))
    (start forms) where
  forms_eq _ := rfl
  find_iff context uri form i := by simp [start, added]
  target_isSome context form hform := by simp [added] at hform

theorem Registered.declared_map (hmaps : Registered forms events maps) (form : Form) :
    ∃ replace : FormEntry Cmd Proc Target → FormEntry Cmd Proc Target,
      (∀ entry, (replace entry).uri = entry.uri) ∧
        declared (maps.forms form) = (declared (forms form)).map replace := by
  rw [hmaps.forms_eq]
  split
  · exact ⟨id, fun _ => rfl, (List.map_id _).symm⟩
  next target _ => exact ⟨FormEntry.setTarget target, fun _ => rfl, declared_retarget target _⟩

/-- The places of an array do not move, and keep their `uri`. -/
theorem Registered.declared_iff (hmaps : Registered forms events maps) {form : Form}
    {uri : UInt32} {i : Nat} :
    (∃ entry, (declared (maps.forms form))[i]? = some entry ∧ entry.uri = uri) ↔
      ∃ entry, (declared (forms form))[i]? = some entry ∧ entry.uri = uri := by
  obtain ⟨replace, huri, hmap⟩ := hmaps.declared_map form
  simp only [hmap, List.getElem?_map, Option.map_eq_some_iff]
  constructor
  · rintro ⟨_, ⟨entry, hentry, rfl⟩, hsame⟩
    exact ⟨entry, hentry, (huri entry).symm.trans hsame⟩
  · rintro ⟨entry, hentry, hsame⟩
    exact ⟨replace entry, ⟨entry, hentry, rfl⟩, (huri entry).trans hsame⟩

theorem Registered.addEntry (hmaps : Registered forms events maps) {context : Context}
    {form : Form} {target : Option Target} (hadd : maps.addEntry context form target = some next) :
    Registered forms (events ++ [.addEntry context form target]) next := by
  obtain ⟨⟨es, entries⟩, hloop, rfl⟩ := Option.map_eq_some_iff.mp hadd
  obtain ⟨rfl, hentries⟩ := addLoop_some hloop
  refine ⟨fun one => ?_, fun one uri other i => ?_, fun one other hother => ?_⟩
  · rw [lastTarget, List.foldl_append, List.foldl_cons, List.foldl_nil, Event.onTarget]
    dsimp only
    obtain rfl | hne := eq_or_ne form one
    · rw [Function.update_self, if_pos rfl, hmaps.forms_eq]
      split
      · rfl
      next earlier _ => exact retarget_retarget target earlier _
    · rw [Function.update_of_ne hne.symm, if_neg hne]
      exact hmaps.forms_eq one
  · rw [added, List.foldl_append, List.foldl_cons, List.foldl_nil, Event.onAdded]
    obtain rfl | hne := eq_or_ne context one
    · dsimp only
      rw [Function.update_self, if_pos rfl, hentries, hmaps.find_iff, List.mem_append,
        List.mem_singleton, or_and_right, added]
      refine or_congr_right ⟨?_, ?_⟩
      · rintro ⟨k, entry, hentry, huri, hsame⟩
        obtain ⟨rfl, rfl⟩ := Prod.mk.inj hsame
        rw [Nat.zero_add]
        exact ⟨rfl, hmaps.declared_iff.mp ⟨entry, hentry, huri⟩⟩
      · rintro ⟨rfl, hplace⟩
        obtain ⟨entry, hentry, huri⟩ := hmaps.declared_iff.mpr hplace
        exact ⟨i, entry, hentry, huri, by rw [Nat.zero_add]⟩
    · dsimp only
      rw [Function.update_of_ne hne.symm, if_neg hne]
      exact hmaps.find_iff one uri other i
  · rw [lastTarget, List.foldl_append, List.foldl_cons, List.foldl_nil, Event.onTarget]
    split
    · rfl
    next hne =>
      rw [added, List.foldl_append, List.foldl_cons, List.foldl_nil, Event.onAdded] at hother
      split at hother
      · obtain hold | hnew := List.mem_append.mp hother
        · exact hmaps.target_isSome one other hold
        · exact absurd (List.mem_singleton.mp hnew).symm hne
      · exact hmaps.target_isSome one other hother

theorem Registered.clear (hmaps : Registered forms events maps) (context : Context) :
    Registered forms (events ++ [.clear context]) (maps.clear context) := by
  have htarget : ∀ form, lastTarget form (events ++ [.clear context]) = lastTarget form events :=
    fun form => by rw [lastTarget, List.foldl_append]; rfl
  have hadded : ∀ one, added one (events ++ [.clear context]) =
      if context = one then [] else added one events :=
    fun one => by rw [added, List.foldl_append]; rfl
  refine ⟨fun form => ?_, fun one uri form i => ?_, fun one form hform => ?_⟩
  · rw [htarget]
    exact hmaps.forms_eq form
  · rw [hadded]
    obtain rfl | hne := eq_or_ne context one
    · simp [FormMaps.clear]
    · rw [FormMaps.clear, if_neg hne]
      dsimp only
      rw [Function.update_of_ne hne.symm]
      exact hmaps.find_iff one uri form i
  · rw [htarget]
    rw [hadded] at hform
    split at hform
    · cases hform
    · exact hmaps.target_isSome one form hform

theorem run_registered :
    ∀ {final : FormMaps Context Form Cmd Proc Target}, run step (start forms) events = some final →
      Registered forms events final := by
  induction events using List.reverseRecOn with
  | nil =>
      intro final hrun
      cases hrun
      exact start_registered
  | append_singleton past event ih =>
      intro final hrun
      obtain ⟨maps, hpast, hevent⟩ := run_split hrun
      rw [run_cons, Option.bind_eq_some_iff] at hevent
      obtain ⟨next, hstep, hnext⟩ := hevent
      cases hnext
      cases event with
      | addEntry context form target => exact (ih hpast).addEntry hstep
      | clear context =>
          cases hstep
          exact (ih hpast).clear context

/-- What the map of a context leads to. -/
theorem Registered.find_eq_some (hmaps : Registered forms events maps) {context : Context}
    {uri : UInt32} {entry : FormEntry Cmd Proc Target} :
    maps.find context uri = some entry ↔
      ∃ form ∈ added context events, ∃ one ∈ declared (forms form), one.uri = uri ∧
        ∃ target, lastTarget form events = some target ∧ entry = one.setTarget target := by
  have hplace : ∀ {form} {i : Nat} {one : FormEntry Cmd Proc Target}, form ∈ added context events →
      (declared (forms form))[i]? = some one → ∃ target, lastTarget form events = some target ∧
        (maps.forms form)[i]? = some (one.setTarget target) := by
    intro form i one hform hone
    obtain ⟨target, htarget⟩ := Option.isSome_iff_exists.mp (hmaps.target_isSome context form hform)
    refine ⟨target, htarget, getElem?_of_declared ?_⟩
    rw [hmaps.forms_eq, htarget]
    dsimp only
    rw [declared_retarget, List.getElem?_map, hone, Option.map_some]
  constructor
  · intro hfind
    obtain ⟨⟨form, i⟩, href, hentry⟩ := Option.bind_eq_some_iff.mp hfind
    obtain ⟨hform, one, hone, huri⟩ := (hmaps.find_iff context uri form i).mp href
    obtain ⟨target, htarget, hget⟩ := hplace hform hone
    dsimp only at hentry
    rw [hget] at hentry
    exact ⟨form, hform, one, List.mem_of_getElem? hone, huri, target, htarget,
      (Option.some.inj hentry).symm⟩
  · rintro ⟨form, hform, one, hone, huri, target, htarget, rfl⟩
    obtain ⟨i, hi⟩ := List.getElem?_of_mem hone
    obtain ⟨other, hother, hget⟩ := hplace hform hi
    rw [htarget] at hother
    cases hother
    rw [FormMaps.find, (hmaps.find_iff context uri form i).mpr ⟨hform, one, hi, huri⟩]
    exact hget

theorem Registered.find_eq_none (hmaps : Registered forms events maps) {context : Context}
    {uri : UInt32} :
    maps.find context uri = none ↔ (maps.entries context).find uri = none := by
  constructor
  · intro hfind
    by_contra hsome
    obtain ⟨⟨form, i⟩, href⟩ := Option.ne_none_iff_exists'.mp hsome
    obtain ⟨hform, one, hone, huri⟩ := (hmaps.find_iff context uri form i).mp href
    obtain ⟨target, htarget⟩ := Option.isSome_iff_exists.mp (hmaps.target_isSome context form hform)
    have hthis := hmaps.find_eq_some.mpr
      ⟨form, hform, one, List.mem_of_getElem? hone, huri, target, htarget, rfl⟩
    rw [hfind] at hthis
    cases hthis
  · intro hnone
    rw [FormMaps.find, hnone, Option.bind_none]

/-- Adding a form goes through when its array has an end mark, names no `uri` twice, and none
that the context has already. -/
theorem Registered.addEntry_isSome (hmaps : Registered forms events maps) (context : Context)
    (form : Form) (target : Option Target) :
    (maps.addEntry context form target).isSome = true ↔
      (∃ entry ∈ forms form, entry.uri = 0) ∧
      ((declared (forms form)).map FormEntry.uri).Nodup ∧
      ∀ entry ∈ declared (forms form), maps.find context entry.uri = none := by
  have hended : (∃ entry ∈ maps.forms form, entry.uri = 0) ↔
      ∃ entry ∈ forms form, entry.uri = 0 := by
    rw [hmaps.forms_eq]
    split
    · rfl
    next target _ => exact retarget_ended target (forms form)
  obtain ⟨replace, huri, hmap⟩ := hmaps.declared_map form
  rw [FormMaps.addEntry, Option.isSome_map, addLoop_isSome_iff, hended, hmap]
  simp only [List.map_map, List.forall_mem_map, huri, hmaps.find_eq_none]
  rw [List.map_congr_left fun entry _ => show (FormEntry.uri ∘ replace) entry = entry.uri from
    huri entry]

/-- Whatever forms were added to whatever contexts, in whatever order: the map of a context
leads for a `uri` to the entry that a form which the context added since it was last cleared
declares for it, with the target that this form was last added with by any context. A form can
be added when it has an end mark and no `uri` of it is met twice. -/
theorem find_added (forms : Form → List (FormEntry Cmd Proc Target))
    (events : List (Event Context Form Target)) (maps : FormMaps Context Form Cmd Proc Target)
    (hrun : run step (start forms) events = some maps) (context : Context) :
    (∀ uri entry, maps.find context uri = some entry ↔
      ∃ form ∈ added context events, ∃ one ∈ declared (forms form), one.uri = uri ∧
        ∃ target, lastTarget form events = some target ∧ entry = one.setTarget target) ∧
    ∀ form target, (maps.step (.addEntry context form target)).isSome = true ↔
      (∃ entry ∈ forms form, entry.uri = 0) ∧
      ((declared (forms form)).map FormEntry.uri).Nodup ∧
      ∀ entry ∈ declared (forms form), maps.find context entry.uri = none :=
  ⟨fun _ _ => (run_registered hrun).find_eq_some, (run_registered hrun).addEntry_isSome context⟩

/-- Two contexts add the same form: the first one dispatches to the target of the second. -/
theorem find_added_shared : ∃ maps : FormMaps Bool Unit Unit Nat Nat,
    run step (start fun _ => [⟨5, none, .vv, 3, none⟩, ⟨0, none, .null, 0, none⟩])
      [.addEntry false () (some 1), .addEntry true () (some 2)] = some maps ∧
    maps.find false 5 = some ⟨5, none, .vv, 3, some 2⟩ := by
  obtain ⟨maps, hrun⟩ : ∃ maps : FormMaps Bool Unit Unit Nat Nat,
      run step (start fun _ => [⟨5, none, .vv, 3, none⟩, ⟨0, none, .null, 0, none⟩])
        [.addEntry false () (some 1), .addEntry true () (some 2)] = some maps := ⟨_, rfl⟩
  refine ⟨maps, hrun, ((find_added _ _ maps hrun false).1 5 _).mpr
    ⟨(), by decide, ⟨5, none, .vv, 3, none⟩, ?_, rfl, some 2, rfl, rfl⟩⟩
  rw [declared_cons (by decide)]
  exact List.mem_cons_self

end Runs

end FormMaps

/-! ## Dispatching a request -/

/-- `getKey()`: nothing sets the key of a request that a connection read. -/
def Request.getKey (_request : Request) : List UInt8 := []

/-- `INVALID_UID`. -/
def MfcAppcontext.invalidUid : UInt32 := 0xFFFFFFFF

/-- What a member function is called with. -/
inductive FormArgs (Cmd Conn : Type) where
  | vv
  | vr (resCode : UInt16)
  | vc (cmd : Cmd)
  | vcr (cmd : Option Cmd) (resCode : UInt16)
  | vcc (cmd : Cmd) (conn : Conn)
  | vccr (cmd : Option Cmd) (conn : Conn) (resCode : UInt16)
  | vccra (cmd : Option Cmd) (conn : Conn) (resCode : UInt16) (request : Request)
  | vk (key : List UInt8)
  | vkc (key : List UInt8) (cmd : Cmd)
  | vkcr (key : List UInt8) (cmd : Option Cmd) (resCode : UInt16)
  | vu (uid : UInt32)
  | vuc (uid : UInt32) (cmd : Cmd)
  | vsc (sid : UInt32) (cmd : Cmd)
  | vucr (uid : UInt32) (cmd : Option Cmd) (resCode : UInt16)
  | vpc (vecKey : List UInt32) (cmd : Option Cmd)
  | vupc (uid : UInt32) (vecKey : List UInt32) (cmd : Option Cmd)
  | otherSwitch (type : FormProcType) (cmd : Option Cmd) (conn : Conn) (request : Request)

/-- What `requestDispatch` calls. -/
inductive Invocation (Cmd Proc Target Conn : Type) where
  | call (target : Target) (proc : Proc) (args : FormArgs Cmd Conn)
  | defaultDispatch (request : Request) (conn : Conn)

/-- An exception that a called function leaves with. -/
inductive Thrown where
  | unpackError
  | other
deriving DecidableEq

/-- A context: what its map leads to, what a derived class overrides, and its writer. -/
structure MfcAppcontext (Cmd Proc Target Conn : Type) : Type 1 where
  find : UInt32 → Option (FormEntry Cmd Proc Target)
  fetchPtr : FormEntry Cmd Proc Target → Request → Conn → Option Target
  getUid : Request → Conn → UInt32
  getSid : Request → Conn → UInt32
  getKeys : List UInt32
  /-- How a called function is left, after the requests before. -/
  throws : List Request → Invocation Cmd Proc Target Conn → Option Thrown
  /-- `writer->flush(conn)`, when there is a writer. -/
  flush : Option (List Request → Request → Int)

/-- `setFormHandler(h)`: the body of a request without an error is unpacked. -/
def Request.setFormHandler {Cmd : Type} (request : Request) :
    Option (FormHandle Cmd) → Except UnpackError (Option Cmd × Request)
  | none => .ok (none, request)
  | some h =>
      if request.resCode = resSuccess then
        (h.handlePacket request.up).map fun (cmd, up) => (cmd, { request with up := up })
      else .ok (none, request)

namespace MfcAppcontext

variable {Cmd Proc Target Conn : Type}

/-- The functions of `MfcAppcontext` itself. -/
def base (find : UInt32 → Option (FormEntry Cmd Proc Target))
    (throws : List Request → Invocation Cmd Proc Target Conn → Option Thrown)
    (flush : Option (List Request → Request → Int)) : MfcAppcontext Cmd Proc Target Conn where
  find := find
  fetchPtr entry _ _ := entry.target
  getUid _ _ := invalidUid
  getSid _ _ := invalidUid
  getKeys := []
  throws := throws
  flush := flush

variable (app : MfcAppcontext Cmd Proc Target Conn)

/-- An id that was found. -/
def valid (id : UInt32) : Option UInt32 := if id = invalidUid then none else some id

/-- The `switch` of `dispatchMessage`: whether there is a call, and with what. -/
def args (type : FormProcType) (request : Request) (cmd : Option Cmd) (conn : Conn) :
    Option (FormArgs Cmd Conn) :=
  match type with
  | .vv => some .vv
  | .vr => some (.vr request.resCode)
  | .vc => cmd.map .vc
  | .vcr => some (.vcr cmd request.resCode)
  | .vcc => cmd.map (.vcc · conn)
  | .vccr => some (.vccr cmd conn request.resCode)
  | .vccra => some (.vccra cmd conn request.resCode request)
  | .vk => some (.vk request.getKey)
  | .vkc => cmd.map (.vkc request.getKey)
  | .vkcr => some (.vkcr request.getKey cmd request.resCode)
  | .vu => (valid (app.getUid request conn)).map .vu
  | .vuc => cmd.bind fun cmd => (valid (app.getUid request conn)).map (.vuc · cmd)
  | .vsc => cmd.bind fun cmd => (valid (app.getSid request conn)).map (.vsc · cmd)
  | .vucr => (valid (app.getUid request conn)).map (.vucr · cmd request.resCode)
  | .vpc => some (.vpc app.getKeys cmd)
  | .vupc => (valid (app.getUid request conn)).map (.vupc · app.getKeys cmd)
  | .vtc | .wcc | .null | .last => some (.otherSwitch type cmd conn request)

/-- `dispatchMessage(entry, request, conn)`, up to the call. -/
def dispatchMessage (entry : FormEntry Cmd Proc Target) (request : Request) (cmd : Option Cmd)
    (conn : Conn) : Option (Invocation Cmd Proc Target Conn) :=
  (app.fetchPtr entry request conn).bind fun target =>
    (app.args entry.type request cmd conn).map (.call target entry.proc)

/-- What `requestDispatch(request, conn)` calls, if anything. -/
def invoked (request : Request) (conn : Conn) : Option (Invocation Cmd Proc Target Conn) :=
  match app.find request.uri with
  | none => some (.defaultDispatch request conn)
  | some entry =>
      if request.resCode = resSuccess then
        match request.setFormHandler entry.requestForm with
        | .error _ => none
        | .ok (cmd, request) => app.dispatchMessage entry request cmd conn
      else app.dispatchMessage entry request none conn

/-- The exception that leaves `requestDispatch`: an `UnpackError` of a member function is
caught. -/
def requestDispatch (seen : List Request) (request : Request) (conn : Conn) : Option Thrown :=
  match app.invoked request conn with
  | none => none
  | some invocation =>
      match app.throws seen invocation, invocation with
      | some .unpackError, .call _ _ _ => none
      | thrown, _ => thrown

/-- `BackLinkHandler::doRequest(request, conn)`. -/
def doRequest (conn : Conn) : DoRequest := fun seen request =>
  match app.requestDispatch seen request conn with
  | some _ => .thrown
  | none =>
      match app.flush with
      | none => .returned 0
      | some flush => .returned (flush seen request)

variable {app}

end MfcAppcontext

end ServiceFrame
