import Mathlib.Data.List.Find
import Mathlib.Data.List.Induction
import Mathlib.Data.List.Nodup
import Mathlib.Logic.Function.Basic

/-! # Settings with a scope

A table is filled from a list of settings, of which some hold in one scope only. A setting of
the own scope takes its place over, and one without a scope is taken where nothing is yet.
When no two settings have the same scope and place, their order is of no account.
-/

namespace ServiceFrame.Foundation

/-- A value for a place, in one scope or in all. -/
structure Setting (Scope Place Value : Type*) where
  scope : Option Scope
  place : Place
  value : Value

namespace Setting

variable {Scope Place Value : Type*} [DecidableEq Scope] [DecidableEq Place]

def key (setting : Setting Scope Place Value) : Option Scope × Place :=
  (setting.scope, setting.place)

def apply (own : Scope) (table : Place → Option Value) (setting : Setting Scope Place Value) :
    Place → Option Value :=
  match setting.scope with
  | some scope =>
      if scope = own then Function.update table setting.place (some setting.value) else table
  | none =>
      if (table setting.place).isSome then table
      else Function.update table setting.place (some setting.value)

theorem apply_scoped (own scope : Scope) (table : Place → Option Value) (place : Place)
    (value : Value) : apply own table ⟨some scope, place, value⟩ =
      if scope = own then Function.update table place (some value) else table := rfl

theorem apply_unscoped (own : Scope) (table : Place → Option Value) (place : Place)
    (value : Value) : apply own table ⟨none, place, value⟩ =
      if (table place).isSome then table else Function.update table place (some value) := rfl

/-- What the settings have under a key. -/
def valueAt (settings : List (Setting Scope Place Value)) (key : Option Scope × Place) :
    Option Value :=
  (settings.find? fun setting => setting.key = key).map value

/-- What the settings have for a place: the own scope first, then no scope. -/
def resolve (own : Scope) (settings : List (Setting Scope Place Value)) (place : Place) :
    Option Value :=
  (valueAt settings (some own, place)).or (valueAt settings (none, place))

variable {settings : List (Setting Scope Place Value)} {setting : Setting Scope Place Value}
  {own : Scope} {place : Place}

theorem valueAt_append (settings : List (Setting Scope Place Value))
    (last : Setting Scope Place Value) (key : Option Scope × Place) :
    valueAt (settings ++ [last]) key =
      (valueAt settings key).or (if last.key = key then some last.value else none) := by
  unfold valueAt
  rw [List.find?_append, Option.map_or]
  congr 1
  by_cases hkey : last.key = key
  · simp [hkey]
  · simp [hkey]

theorem valueAt_eq_none {key : Option Scope × Place} (hkey : key ∉ settings.map Setting.key) :
    valueAt settings key = none := by
  rw [valueAt, Option.map_eq_none_iff, List.find?_eq_none]
  intro setting hmem
  rw [decide_eq_true_eq]
  exact fun heq => hkey (heq ▸ List.mem_map_of_mem hmem)

/-- One more setting, under a key that the others do not have. -/
theorem resolve_append (hkey : setting.key ∉ settings.map key) :
    resolve own (settings ++ [setting]) = apply own (resolve own settings) setting := by
  funext place
  have hnone := valueAt_eq_none hkey
  rcases setting with ⟨_ | scope, here, value⟩
  · -- it is taken when the own scope has nothing for the place
    simp only [key] at hnone
    by_cases hplace : here = place
    · subst hplace
      cases hown : valueAt settings (some own, here) with
      | none => simp [resolve, apply_unscoped, valueAt_append, key, hown, hnone]
      | some other => simp [resolve, apply_unscoped, valueAt_append, key, hown]
    · have hsame : resolve own (settings ++ [⟨none, here, value⟩]) place =
          resolve own settings place := by
        simp [resolve, valueAt_append, key, hplace]
      rw [hsame, apply_unscoped]
      split
      · rfl
      · rw [Function.update_of_ne (Ne.symm hplace)]
  · by_cases hscope : scope = own
    · subst hscope
      simp only [key] at hnone
      by_cases hplace : here = place
      · subst hplace
        simp [resolve, apply_scoped, valueAt_append, key, hnone]
      · simp [resolve, apply_scoped, valueAt_append, key, hplace, Ne.symm hplace]
    · simp [resolve, apply_scoped, valueAt_append, key, hscope]

/-- A table filled from settings with distinct keys has what they resolve to. -/
theorem foldl_apply (hkeys : (settings.map key).Nodup) :
    settings.foldl (apply own) (fun _ => none) = resolve own settings := by
  induction settings using List.reverseRecOn with
  | nil => rfl
  | append_singleton settings last ih =>
      rw [List.map_append, List.map_singleton, List.nodup_append_comm] at hkeys
      obtain ⟨hlast, hrest⟩ := List.nodup_cons.mp hkeys
      rw [List.foldl_append, ih hrest, List.foldl_cons, List.foldl_nil, resolve_append hlast]

theorem valueAt_perm {other : List (Setting Scope Place Value)} (hperm : other.Perm settings)
    (hkeys : (settings.map key).Nodup) : valueAt other = valueAt settings := by
  funext key
  unfold valueAt
  rw [List.find?_eq_find?_of_perm hperm]
  rintro first ⟨hfirst, hfirstKey⟩ second ⟨hsecond, hsecondKey⟩
  rw [decide_eq_true_eq] at hfirstKey hsecondKey
  exact List.inj_on_of_nodup_map hkeys (hperm.mem_iff.mp hfirst) (hperm.mem_iff.mp hsecond)
    (hfirstKey.trans hsecondKey.symm)

/-- The order of the settings is of no account. -/
theorem resolve_perm {other : List (Setting Scope Place Value)} (hperm : other.Perm settings)
    (hkeys : (settings.map key).Nodup) : resolve own other = resolve own settings := by
  unfold resolve
  rw [valueAt_perm hperm hkeys]

end Setting

end ServiceFrame.Foundation
