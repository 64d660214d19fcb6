import ServiceFrame.Foundation.CString
import ServiceFrame.Foundation.OrderedMap

/-! # Property files

`Property` of `core/sox/property.cpp`: named values in the lines of a file. A file is saved over
what it held: its comments and the names that the map does not have stay.
-/

namespace ServiceFrame

open Foundation

namespace Property

/-- `m_map`. -/
abbrev SSMap := OrderedMap (List UInt8) (List UInt8)

/-- The lines that `std::getline` reads. What is behind the last end of line counts as one if it is
not empty. -/
def getlines : List UInt8 → List (List UInt8)
  | [] => []
  | c :: rest =>
      if c = 10 then [] :: getlines rest
      else
        match getlines rest with
        | [] => [[c]]
        | line :: more => (c :: line) :: more

/-- Empty lines and comments. -/
def skipped (line : List UInt8) : Bool :=
  line.isEmpty || line.head? = some 35 || line.head? = some 59

def parseInsert (map : SSMap) (line : List UInt8) : SSMap :=
  match cutAt 61 line with
  | some (name, value) => map.set name value
  | none => map

def load (map : SSMap) (file : List UInt8) : SSMap :=
  (getlines file).foldl (fun map line => if skipped line then map else parseInsert map line) map

def printLine (entry : List UInt8 × List UInt8) : List UInt8 := entry.1 ++ 61 :: entry.2

/-- A line is saved: what it is then, and what is left in the map. -/
def saveLine (map : SSMap) (line : List UInt8) : List UInt8 × SSMap :=
  if skipped line then (line, map)
  else
    match cutAt 61 line with
    | some (name, _) =>
        match map.find name with
        | some value => (printLine (name, value), map.erase name)
        | none => (line, map)
    | none => (line, map)

def saveLines (map : SSMap) : List (List UInt8) → List (List UInt8) × SSMap
  | [] => ([], map)
  | line :: rest =>
      let saved := saveLine map line
      let later := saveLines saved.2 rest
      (saved.1 :: later.1, later.2)

/-- The lines of a file, each ended. -/
def writeLines (lines : List (List UInt8)) : List UInt8 := lines.flatMap fun line => line ++ [10]

/-- `save` over `file`: what the file is then, and the map. -/
def save (map : SSMap) (file : List UInt8) : List UInt8 × SSMap :=
  let saved := saveLines map (getlines file)
  (writeLines saved.1 ++ writeLines (saved.2.entries.map printLine), saved.2)

/-! ## Lines -/

theorem notMem_of_mem_getlines {file line : List UInt8} (hline : line ∈ getlines file) :
    10 ∉ line := by
  induction file generalizing line with
  | nil => cases hline
  | cons c rest ih =>
      unfold getlines at hline
      split at hline
      next =>
        rcases List.mem_cons.mp hline with rfl | hrest
        · exact List.not_mem_nil
        · exact ih hrest
      next hc =>
        cases hlines : getlines rest with
        | nil =>
            rw [hlines] at hline
            rw [List.mem_singleton.mp hline, List.mem_singleton]
            exact Ne.symm hc
        | cons first more =>
            rw [hlines] at hline
            rcases List.mem_cons.mp hline with rfl | hmore
            · have hfirst := ih (hlines ▸ List.mem_cons_self : first ∈ getlines rest)
              exact List.not_mem_cons_of_ne_of_not_mem (Ne.symm hc) hfirst
            · exact ih (hlines ▸ List.mem_cons_of_mem _ hmore)

theorem getlines_append {line : List UInt8} (hline : 10 ∉ line) (rest : List UInt8) :
    getlines (line ++ 10 :: rest) = line :: getlines rest := by
  induction line with
  | nil => simp [getlines]
  | cons c line ih =>
      obtain ⟨hc, hline⟩ := List.ne_and_not_mem_of_not_mem_cons hline
      rw [List.cons_append, getlines, if_neg hc.symm, ih hline]

/-- Lines are read as they were written. -/
theorem getlines_writeLines {lines : List (List UInt8)} (hlines : ∀ line ∈ lines, 10 ∉ line) :
    getlines (writeLines lines) = lines := by
  induction lines with
  | nil => rfl
  | cons line rest ih =>
      obtain ⟨hline, hrest⟩ := List.forall_mem_cons.mp hlines
      rw [writeLines, List.flatMap_cons, List.append_assoc, List.singleton_append,
        getlines_append hline]
      exact congrArg (line :: ·) (ih hrest)

/-! ## Values -/

/-- The value that a line gives to `name`. -/
def valueOf (name line : List UInt8) : Option (List UInt8) :=
  if skipped line then none
  else
    match cutAt 61 line with
    | some (other, value) => if name = other then some value else none
    | none => none

/-- The values that the lines give to `name`. -/
def valuesOf (name : List UInt8) (lines : List (List UInt8)) : List (List UInt8) :=
  lines.filterMap (valueOf name)

theorem valuesOf_cons (name line : List UInt8) (rest : List (List UInt8)) :
    valuesOf name (line :: rest) = (valueOf name line).toList ++ valuesOf name rest := by
  rw [valuesOf, List.filterMap_cons]
  cases valueOf name line with
  | none => rfl
  | some value => rfl

theorem find_loadLine (map : SSMap) (line name : List UInt8) :
    (if skipped line then map else parseInsert map line).find name =
      (valueOf name line).or (map.find name) := by
  unfold valueOf
  split
  next => rfl
  next =>
    unfold parseInsert
    cases cutAt 61 line with
    | none => rfl
    | some entry =>
        obtain ⟨other, value⟩ := entry
        by_cases hname : name = other
        · subst hname
          simp [OrderedMap.find_set_self]
        · simp [OrderedMap.find_set_of_ne, hname]

/-- The last value counts. -/
theorem find_load (map : SSMap) (file name : List UInt8) :
    (load map file).find name =
      ((valuesOf name (getlines file)).getLast?).or (map.find name) := by
  rw [load]
  induction getlines file generalizing map with
  | nil => rfl
  | cons line rest ih =>
      rw [List.foldl_cons, ih, find_loadLine, valuesOf_cons, List.getLast?_append, Option.or_assoc]
      cases valueOf name line with
      | none => rfl
      | some value => rfl

/-! ## Saving -/

/-- A line of a name is one for every value. -/
theorem valueOf_printLine {line name old : List UInt8} (hentry : skipped line = false)
    (hcut : cutAt 61 line = some (name, old)) (value other : List UInt8) :
    valueOf other (printLine (name, value)) = if other = name then some value else none := by
  obtain ⟨rfl, hname⟩ := cutAt_eq_some hcut
  have hskipped : skipped (printLine (name, value)) = false := by
    rw [← hentry]
    cases name with
    | nil => rfl
    | cons c rest => rfl
  rw [valueOf, hskipped, printLine]
  simp [cutAt_append hname]

/-- A line is saved with the value of the map, which then is without it. -/
theorem saveLine_spec (map : SSMap) (line name : List UInt8) :
    valueOf name (saveLine map line).1 =
        (valueOf name line).map (fun old => (map.find name).getD old) ∧
      (saveLine map line).2.find name =
        if (valueOf name line).isNone then map.find name else none := by
  by_cases hskipped : skipped line = true
  · simp [saveLine, valueOf, hskipped]
  rw [Bool.not_eq_true] at hskipped
  have hvalue : valueOf name line = match cutAt 61 line with
      | some (other, value) => if name = other then some value else none
      | none => none := by
    rw [valueOf, hskipped]
    rfl
  cases hcut : cutAt 61 line with
  | none =>
      rw [hcut] at hvalue
      simp [saveLine, hskipped, hcut, hvalue]
  | some entry =>
      obtain ⟨other, old⟩ := entry
      rw [hcut] at hvalue
      dsimp only at hvalue
      cases hfind : map.find other with
      | none =>
          have hsaved : saveLine map line = (line, map) := by
            simp [saveLine, hskipped, hcut, hfind]
          rw [hsaved, hvalue]
          split
          next hname =>
            subst hname
            simp [hfind]
          next => simp
      | some value =>
          have hsaved : saveLine map line = (printLine (other, value), map.erase other) := by
            simp [saveLine, hskipped, hcut, hfind]
          rw [hsaved, valueOf_printLine hskipped hcut, hvalue]
          split
          next hname =>
            subst hname
            simp [hfind, OrderedMap.find_erase_self]
          next hname => simp [OrderedMap.find_erase_of_ne, hname]

/-- Of the lines of a name, the first is saved with the value of the map. -/
theorem saveLines_spec (map : SSMap) (lines : List (List UInt8)) (name : List UInt8) :
    valuesOf name (saveLines map lines).1 =
        (valuesOf name lines).modifyHead (fun old => (map.find name).getD old) ∧
      (saveLines map lines).2.find name =
        if (valuesOf name lines).isEmpty then map.find name else none := by
  induction lines generalizing map with
  | nil => exact ⟨rfl, rfl⟩
  | cons line rest ih =>
      obtain ⟨hline, hleft⟩ := saveLine_spec map line name
      obtain ⟨hrest, hlast⟩ := ih (saveLine map line).2
      rw [saveLines]
      dsimp only
      rw [valuesOf_cons, valuesOf_cons, hline, hrest, hlast, hleft]
      cases valueOf name line with
      | none => exact ⟨rfl, rfl⟩
      | some old =>
          refine ⟨?_, by simp⟩
          cases valuesOf name rest with
          | nil => rfl
          | cons first more => rfl

/-- What the syntax of a file can hold. -/
structure Representable (name value : List UInt8) : Prop where
  equal : 61 ∉ name
  oneLine : 10 ∉ name ∧ 10 ∉ value
  noComment : name.head? ≠ some 35 ∧ name.head? ≠ some 59

theorem valueOf_representable {name value : List UInt8} (hentry : Representable name value)
    (other : List UInt8) :
    valueOf other (printLine (name, value)) = if other = name then some value else none := by
  apply valueOf_printLine _ (cutAt_append hentry.equal value)
  obtain ⟨hhash, hsemicolon⟩ := hentry.noComment
  cases name with
  | nil => rfl
  | cons c rest =>
      simp only [List.head?_cons, ne_eq] at hhash hsemicolon
      simp [skipped, hhash, hsemicolon]

theorem notMem_saveLine {map : SSMap} {line : List UInt8}
    (hmap : ∀ name value, map.find name = some value → 10 ∉ value) (hline : 10 ∉ line) :
    10 ∉ (saveLine map line).1 := by
  unfold saveLine
  split
  next => exact hline
  next =>
    cases hcut : cutAt 61 line with
    | none => exact hline
    | some entry =>
        obtain ⟨name, old⟩ := entry
        cases hfind : map.find name with
        | none => simpa [hfind] using hline
        | some value =>
            obtain ⟨rfl, -⟩ := cutAt_eq_some hcut
            have hname : 10 ∉ name := fun hmem => hline (List.mem_append_left _ hmem)
            have hvalue := hmap name value hfind
            simp [hfind, printLine, hname, hvalue]

theorem notMem_saveLines {map : SSMap} {lines : List (List UInt8)}
    (hmap : ∀ name value, map.find name = some value → 10 ∉ value)
    (hlines : ∀ line ∈ lines, 10 ∉ line) : ∀ line ∈ (saveLines map lines).1, 10 ∉ line := by
  induction lines generalizing map with
  | nil => simp [saveLines]
  | cons line rest ih =>
      obtain ⟨hline, hrest⟩ := List.forall_mem_cons.mp hlines
      have hleft : ∀ name value, (saveLine map line).2.find name = some value → 10 ∉ value := by
        intro name value hfind
        rw [(saveLine_spec map line name).2] at hfind
        split at hfind
        · exact hmap name value hfind
        · cases hfind
      rw [saveLines, List.forall_mem_cons]
      exact ⟨notMem_saveLine hmap hline, ih hleft hrest⟩

variable {map : SSMap}

/-- The values that a saved file gives to a name. -/
theorem valuesOf_save (hmap : ∀ name value, map.find name = some value → Representable name value)
    (file name : List UInt8) :
    valuesOf name (getlines (save map file).1) =
      valuesOf name (saveLines map (getlines file)).1 ++
        ((saveLines map (getlines file)).2.find name).toList := by
  have hleft : ∀ name value, (saveLines map (getlines file)).2.find name = some value →
      Representable name value := by
    intro name value hfind
    rw [(saveLines_spec map (getlines file) name).2] at hfind
    split at hfind
    · exact hmap name value hfind
    · cases hfind
  have hlines : ∀ line ∈ (saveLines map (getlines file)).1 ++
      (saveLines map (getlines file)).2.entries.map printLine, 10 ∉ line := by
    intro line hline
    rcases List.mem_append.mp hline with hsaved | hprinted
    · exact notMem_saveLines (fun name value hfind => (hmap name value hfind).oneLine.2)
        (fun line => notMem_of_mem_getlines) line hsaved
    · obtain ⟨entry, hentry, rfl⟩ := List.mem_map.mp hprinted
      obtain ⟨hname, hvalue⟩ := (hleft _ _ (OrderedMap.mem_entries.mp hentry)).oneLine
      simp [printLine, hname, hvalue]
  have hprinted : valuesOf name ((saveLines map (getlines file)).2.entries.map printLine) =
      ((saveLines map (getlines file)).2.find name).toList := by
    rw [valuesOf, List.filterMap_map, ← OrderedMap.filterMap_entries]
    apply List.filterMap_congr
    intro entry hentry
    rw [Function.comp_apply, valueOf_representable (hleft _ _ (OrderedMap.mem_entries.mp hentry))]
    congr
  rw [save]
  dsimp only
  rw [writeLines, writeLines, ← List.flatMap_append]
  change valuesOf name (getlines (writeLines _)) = _
  rw [getlines_writeLines hlines, valuesOf, List.filterMap_append]
  exact congrArg _ hprinted

/-- Loading a saved file gives each name of the map its value, if the file did not hold the name
more than once, and each other name the value that the file gave it before. In the map, what the
file did not hold stays as it is. -/
theorem load_save (hmap : ∀ name value, map.find name = some value → Representable name value)
    (file : List UInt8) :
    (∀ name value, map.find name = some value → (valuesOf name (getlines file)).length ≤ 1 →
      (load .empty (save map file).1).find name = some value) ∧
    (∀ name, map.find name = none →
      (load .empty (save map file).1).find name = (load .empty file).find name) ∧
    ∀ name, valuesOf name (getlines file) = [] ∨ map.find name = none →
      (save map file).2.find name = map.find name := by
  refine ⟨?_, ?_, ?_⟩
  · intro name value hfind honce
    obtain ⟨hsaved, hleft⟩ := saveLines_spec map (getlines file) name
    rw [find_load, valuesOf_save hmap, hsaved, hleft, hfind]
    match hvalues : valuesOf name (getlines file) with
    | [] => rfl
    | [old] => rfl
    | _ :: _ :: _ => simp [hvalues] at honce
  · intro name hfind
    obtain ⟨hsaved, hleft⟩ := saveLines_spec map (getlines file) name
    rw [find_load, find_load, valuesOf_save hmap, hsaved, hleft, hfind]
    cases valuesOf name (getlines file) with
    | nil => rfl
    | cons old more => simp
  · intro name hname
    rw [save]
    dsimp only
    rw [(saveLines_spec map (getlines file) name).2]
    rcases hname with hnone | hfind
    · rw [hnone]
      rfl
    · rw [hfind, ite_self]

/-- The map of one name and one value. -/
theorem representable_single {name value : List UInt8} (hentry : Representable name value) :
    ∀ other old, (OrderedMap.empty.set name value : SSMap).find other = some old →
      Representable other old := by
  intro other old hfind
  by_cases hname : other = name
  · subst hname
    rw [OrderedMap.find_set_self] at hfind
    cases hfind
    exact hentry
  · rw [OrderedMap.find_set_of_ne _ hname] at hfind
    cases hfind

/-- The name `a` with the value `1`. -/
def oneName : SSMap := OrderedMap.empty.set [97] [49]

/-- The line `a=2` of a file gets the value `1`. -/
theorem load_save_oneName :
    (load .empty (save oneName [97, 61, 50, 10]).1).find [97] = some [49] :=
  (@load_save oneName
    (representable_single (⟨by decide, by decide, by decide⟩ : Representable [97] [49]))
    [97, 61, 50, 10]).1 [97] [49] (OrderedMap.find_set_self _ _ _) (by decide)

/-- The line `b=2` of a file that the map knows nothing of stays, and is loaded. -/
theorem load_save_otherName : ¬ ∀ (map : SSMap) (file : List UInt8),
    (∀ name value, map.find name = some value → Representable name value) →
    load .empty (save map file).1 = map ∧ (save map file).2 = map := by
  intro hround
  have hload := (hround oneName [98, 61, 50, 10]
    (representable_single ⟨by decide, by decide, by decide⟩)).1
  have hfind := congrArg (fun map : SSMap => map.entries.length) hload
  revert hfind
  decide

end Property

end ServiceFrame
