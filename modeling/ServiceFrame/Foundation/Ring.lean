import Mathlib.Logic.Function.Basic
import Mathlib.Data.List.Nodup
import Mathlib.Data.List.Induction

/-! # Rings of doubly linked nodes

Nodes are linked both ways by two maps. A ring runs from its head through its
nodes back to the head; a family of rings has heads of its own and shares no
node. The rules say what the usual writes to the links do to a family.
-/

namespace ServiceFrame.Foundation

universe uNode

structure Links (Node : Type uNode) where
  prev : Node → Node
  next : Node → Node

namespace Links

variable {Node : Type uNode}

/-- The nodes lie between `first` and `last`, each linked to the next and back. -/
def Path (links : Links Node) : Node → List Node → Node → Prop
  | first, [], last => links.next first = last ∧ links.prev last = first
  | first, node :: rest, last =>
      (links.next first = node ∧ links.prev node = first) ∧ Path links node rest last

/-- Each node is linked on to the next one, and at the end to `last`. -/
def Leads (links : Links Node) (last : Node) : List Node → Prop
  | [] => True
  | node :: rest => links.next node = rest.headD last ∧ Leads links last rest

structure Ring (links : Links Node) (head : Node) (nodes : List Node) : Prop where
  path : links.Path head nodes head
  nodup : (head :: nodes).Nodup

variable {links other : Links Node} {first last head node new : Node} {nodes front back : List Node}

theorem Path.congr (hpath : links.Path first nodes last)
    (hnext : ∀ node ∈ first :: nodes, other.next node = links.next node)
    (hprev : ∀ node ∈ last :: nodes, other.prev node = links.prev node) :
    other.Path first nodes last := by
  induction nodes generalizing first with
  | nil =>
      rw [Path, hnext first List.mem_cons_self, hprev last List.mem_cons_self]
      exact hpath
  | cons node rest ih =>
      rcases hpath with ⟨hlink, hrest⟩
      refine ⟨?_, ih hrest ?_ ?_⟩
      · rw [hnext first List.mem_cons_self, hprev node (by simp)]
        exact hlink
      · intro other hother
        exact hnext other (List.mem_cons_of_mem first hother)
      · intro other hother
        exact hprev other (by
          simp only [List.mem_cons] at hother ⊢
          tauto)

theorem path_append :
    links.Path first (front ++ node :: back) last ↔
      links.Path first front node ∧ links.Path node back last := by
  induction front generalizing first with
  | nil => exact Iff.rfl
  | cons x rest ih => simp only [List.cons_append, Path, ih, and_assoc]

theorem Path.prev_mem (hpath : links.Path first nodes last) : links.prev last ∈ first :: nodes := by
  induction nodes generalizing first with
  | nil => simp [hpath.2]
  | cons node rest ih => exact List.mem_cons_of_mem first (ih hpath.2)

theorem Path.next_mem (hpath : links.Path first nodes last) : links.next first ∈ last :: nodes := by
  cases nodes with
  | nil => simp [hpath.1]
  | cons node rest => simp [hpath.1.1]

theorem Path.next_eq (hpath : links.Path first nodes last) :
    links.next first = nodes.headD last := by
  cases nodes with
  | nil => exact hpath.1
  | cons node rest => exact hpath.1.1

theorem Path.leads (hpath : links.Path first nodes last) : links.Leads last nodes := by
  induction nodes generalizing first with
  | nil => trivial
  | cons node rest ih => exact ⟨hpath.2.next_eq, ih hpath.2⟩

theorem Leads.congr (hleads : links.Leads last nodes)
    (hnext : ∀ node ∈ nodes, other.next node = links.next node) : other.Leads last nodes := by
  induction nodes with
  | nil => trivial
  | cons node rest ih =>
      refine ⟨?_, ih hleads.2 fun other hother => hnext other (List.mem_cons_of_mem node hother)⟩
      rw [hnext node List.mem_cons_self]
      exact hleads.1

theorem Ring.congr (hring : links.Ring head nodes)
    (hnext : ∀ node ∈ head :: nodes, other.next node = links.next node)
    (hprev : ∀ node ∈ head :: nodes, other.prev node = links.prev node) :
    other.Ring head nodes :=
  ⟨hring.path.congr hnext hprev, hring.nodup⟩

/-! ## Writes -/

section Writes

variable [DecidableEq Node]

def setPrev (links : Links Node) (node target : Node) : Links Node :=
  { links with prev := Function.update links.prev node target }

def setNext (links : Links Node) (node target : Node) : Links Node :=
  { links with next := Function.update links.next node target }

@[simp] theorem setPrev_next (links : Links Node) (node target : Node) :
    (links.setPrev node target).next = links.next := rfl

@[simp] theorem setNext_prev (links : Links Node) (node target : Node) :
    (links.setNext node target).prev = links.prev := rfl

@[simp] theorem setPrev_prev_self (links : Links Node) (node target : Node) :
    (links.setPrev node target).prev node = target :=
  Function.update_self ..

@[simp] theorem setNext_next_self (links : Links Node) (node target : Node) :
    (links.setNext node target).next node = target :=
  Function.update_self ..

theorem setPrev_prev_ne (links : Links Node) (target : Node) {node other : Node}
    (hother : other ≠ node) : (links.setPrev node target).prev other = links.prev other :=
  Function.update_of_ne hother ..

theorem setNext_next_ne (links : Links Node) (target : Node) {node other : Node}
    (hother : other ≠ node) : (links.setNext node target).next other = links.next other :=
  Function.update_of_ne hother ..

/-- Put `new` between `last` and what is before it. -/
def insertBefore (links : Links Node) (new last : Node) : Links Node :=
  (((links.setPrev last new).setNext new last).setPrev new (links.prev last)).setNext
    (links.prev last) new

/-- Link the neighbours of a node with each other. -/
def unlink (links : Links Node) (node : Node) : Links Node :=
  (links.setNext (links.prev node) (links.next node)).setPrev (links.next node) (links.prev node)

/-- Link a head with itself. -/
def reset (links : Links Node) (head : Node) : Links Node :=
  (links.setNext head head).setPrev head head

theorem reset_ring (links : Links Node) (head : Node) : (links.reset head).Ring head [] :=
  ⟨by simp [Path, Links.reset], List.nodup_singleton head⟩

theorem insertBefore_next_ne {other : Node} (hnew : other ≠ new)
    (htail : other ≠ links.prev last) : (links.insertBefore new last).next other =
      links.next other := by
  rw [insertBefore, setNext_next_ne _ _ htail, setPrev_next, setNext_next_ne _ _ hnew,
    setPrev_next]

theorem insertBefore_prev_ne {other : Node} (hnew : other ≠ new) (hlast : other ≠ last) :
    (links.insertBefore new last).prev other = links.prev other := by
  rw [insertBefore, setNext_prev, setPrev_prev_ne _ _ hnew, setNext_prev,
    setPrev_prev_ne _ _ hlast]

theorem Path.insertBefore (hpath : links.Path first nodes last) (hnodup : (first :: nodes).Nodup)
    (hlast : last ∉ nodes) (hnew : new ∉ last :: first :: nodes) :
    (links.insertBefore new last).Path first (nodes ++ [new]) last := by
  induction nodes generalizing first with
  | nil =>
      simp only [List.mem_cons, List.not_mem_nil, or_false, not_or] at hnew
      have htail : links.prev last = first := hpath.2
      refine ⟨⟨?_, ?_⟩, ?_, ?_⟩
      · simp [Links.insertBefore, htail]
      · simp [Links.insertBefore, htail]
      · rw [Links.insertBefore, htail, setNext_next_ne _ _ hnew.2, setPrev_next,
          setNext_next_self]
      · rw [Links.insertBefore, setNext_prev, setPrev_prev_ne _ _ (Ne.symm hnew.1), setNext_prev,
          setPrev_prev_self]
  | cons node rest ih =>
      obtain ⟨⟨hnext, hprev⟩, hrest⟩ := hpath
      obtain ⟨hfirst, hnodup⟩ := List.nodup_cons.mp hnodup
      simp only [List.mem_cons, not_or] at hlast hnew
      refine ⟨⟨?_, ?_⟩, ih hrest hnodup hlast.2 (by simp [hnew.1, hnew.2.2])⟩
      · rw [insertBefore_next_ne (Ne.symm hnew.2.1), hnext]
        rintro rfl
        exact hfirst hrest.prev_mem
      · rw [insertBefore_prev_ne (Ne.symm hnew.2.2.1) (Ne.symm hlast.1), hprev]

theorem Path.unlink (hfront : links.Path first front node) (hback : links.Path node back last)
    (hnodup : (first :: (front ++ back)).Nodup) (hlast : last ∉ front ++ back) :
    (links.unlink node).Path first (front ++ back) last := by
  induction front generalizing first with
  | nil =>
      have hbefore : links.prev node = first := hfront.2
      cases back with
      | nil =>
          have hbehind : links.next node = last := hback.1
          simp [Path, Links.unlink, hbefore, hbehind]
      | cons x rest =>
          have hbehind : links.next node = x := hback.1.1
          obtain ⟨hfirst, hnodup⟩ := List.nodup_cons.mp hnodup
          simp only [List.nil_append, List.mem_cons, not_or] at hfirst hlast
          refine ⟨by simp [Links.unlink, hbefore, hbehind], hback.2.congr ?_ ?_⟩
          · intro y hy
            have hne : y ≠ first := by
              rintro rfl
              simp only [List.mem_cons] at hy
              tauto
            rw [Links.unlink, hbefore, setPrev_next, setNext_next_ne _ _ hne]
          · intro y hy
            have hne : y ≠ x := by
              rintro rfl
              rcases List.mem_cons.mp hy with rfl | hmem
              · exact hlast.1 rfl
              · exact (List.nodup_cons.mp hnodup).1 hmem
            rw [Links.unlink, hbehind, setPrev_prev_ne _ _ hne, setNext_prev]
  | cons x rest ih =>
      obtain ⟨⟨hnext, hprev⟩, hrest⟩ := hfront
      obtain ⟨hfirst, hnodup⟩ := List.nodup_cons.mp hnodup
      simp only [List.cons_append, List.mem_cons, List.mem_append, not_or] at hfirst hlast
      refine ⟨⟨?_, ?_⟩, ih hrest hnodup (by simp [hlast.2])⟩
      · rw [Links.unlink, setPrev_next, setNext_next_ne _ _, hnext]
        rintro rfl
        have hmem := hrest.prev_mem
        simp only [List.mem_cons] at hmem
        tauto
      · rw [Links.unlink, setPrev_prev_ne _ _, setNext_prev, hprev]
        rintro rfl
        have hmem := hback.next_mem
        have hx : links.next node ∉ rest ++ back := (List.nodup_cons.mp hnodup).1
        rw [List.mem_append, not_or] at hx
        rcases List.mem_cons.mp hmem with hmem | hmem
        · exact hlast.1 hmem.symm
        · exact hx.2 hmem

end Writes

/-! ## Families of rings -/

/-- The slots are rings of their own, and no node is a head. -/
structure Rings (links : Links Node) (IsHead : Node → Prop) (slots : Node → List Node) : Prop where
  ring : ∀ head, IsHead head → links.Ring head (slots head)
  node : ∀ head, IsHead head → ∀ node ∈ slots head, ¬ IsHead node
  apart : ∀ head, IsHead head → ∀ other, IsHead other → ∀ node,
    node ∈ slots head → node ∈ slots other → head = other

variable {IsHead : Node → Prop} {slots : Node → List Node}

/-- What a ring and another head's ring have in common is nothing. -/
theorem Rings.disjoint (hrings : links.Rings IsHead slots) {head other : Node}
    (hhead : IsHead head) (hother : IsHead other) (hne : other ≠ head) :
    ∀ node ∈ head :: slots head, node ∉ other :: slots other := by
  intro node hnode hmem
  rcases List.mem_cons.mp hnode with rfl | hnode
  · rcases List.mem_cons.mp hmem with rfl | hmem
    · exact hne rfl
    · exact hrings.node other hother node hmem hhead
  · rcases List.mem_cons.mp hmem with rfl | hmem
    · exact hrings.node head hhead node hnode hother
    · exact hne (hrings.apart other hother head hhead node hmem hnode)

variable [DecidableEq Node]

/-- Writes to the nodes of one ring, and to nodes that are in none, leave the other rings. -/
theorem Rings.update (hrings : links.Rings IsHead slots) (hhead : IsHead head)
    {after : Links Node} {nodes : List Node} (hring : after.Ring head nodes)
    (hnodes : ∀ node ∈ nodes, node ∈ slots head ∨
      ¬ IsHead node ∧ ∀ other, IsHead other → node ∉ slots other)
    (hnext : ∀ node, node ∉ head :: slots head → node ∉ nodes → after.next node = links.next node)
    (hprev : ∀ node, node ∉ head :: slots head → node ∉ nodes → after.prev node = links.prev node) :
    after.Rings IsHead (Function.update slots head nodes) := by
  -- a node of another ring is none of those that may be written
  have hkept : ∀ other, IsHead other → other ≠ head → ∀ node ∈ other :: slots other,
      node ∉ head :: slots head ∧ node ∉ nodes := by
    intro other hother hne node hnode
    have hapart : node ∉ head :: slots head := fun hin =>
      hrings.disjoint hhead hother hne node hin hnode
    refine ⟨hapart, ?_⟩
    intro hin
    rcases hnodes node hin with hold | ⟨hnotHead, hfree⟩
    · exact hapart (List.mem_cons_of_mem head hold)
    · rcases List.mem_cons.mp hnode with rfl | hnode
      · exact hnotHead hother
      · exact hfree other hother hnode
  refine ⟨?_, ?_, ?_⟩
  · intro other hother
    by_cases hsame : other = head
    · subst hsame
      rw [Function.update_self]
      exact hring
    · rw [Function.update_of_ne hsame]
      apply (hrings.ring other hother).congr
      · intro node hnode
        obtain ⟨hapart, hout⟩ := hkept other hother hsame node hnode
        exact hnext node hapart hout
      · intro node hnode
        obtain ⟨hapart, hout⟩ := hkept other hother hsame node hnode
        exact hprev node hapart hout
  · intro other hother node hnode
    by_cases hsame : other = head
    · subst hsame
      rw [Function.update_self] at hnode
      rcases hnodes node hnode with hold | ⟨hnotHead, -⟩
      · exact hrings.node other hother node hold
      · exact hnotHead
    · rw [Function.update_of_ne hsame] at hnode
      exact hrings.node other hother node hnode
  · intro first hfirst second hsecond node hnode hnode'
    by_cases hsame : first = head
    · by_cases hsame' : second = head
      · exact hsame.trans hsame'.symm
      · subst hsame
        rw [Function.update_self] at hnode
        rw [Function.update_of_ne hsame'] at hnode'
        exact absurd hnode (hkept second hsecond hsame' node (List.mem_cons_of_mem _ hnode')).2
    · rw [Function.update_of_ne hsame] at hnode
      by_cases hsame' : second = head
      · subst hsame'
        rw [Function.update_self] at hnode'
        exact absurd hnode' (hkept first hfirst hsame node (List.mem_cons_of_mem _ hnode)).2
      · rw [Function.update_of_ne hsame'] at hnode'
        exact hrings.apart first hfirst second hsecond node hnode hnode'

theorem Rings.insertBefore (hrings : links.Rings IsHead slots) (hhead : IsHead head)
    (hnew : ¬ IsHead new) (hfree : ∀ other, IsHead other → new ∉ slots other) :
    (links.insertBefore new head).Rings IsHead
      (Function.update slots head (slots head ++ [new])) := by
  have hring := hrings.ring head hhead
  have hout : new ∉ head :: slots head := by
    rw [List.mem_cons, not_or]
    refine ⟨?_, hfree head hhead⟩
    rintro rfl
    exact hnew hhead
  refine hrings.update hhead ⟨?_, ?_⟩ ?_ ?_ ?_
  · apply hring.path.insertBefore hring.nodup (List.nodup_cons.mp hring.nodup).1
    rw [List.mem_cons, not_or]
    exact ⟨fun hsame => hout (hsame ▸ List.mem_cons_self), hout⟩
  · rw [← List.cons_append]
    apply hring.nodup.append (List.nodup_singleton new)
    rw [List.disjoint_singleton]
    exact hout
  · intro node hnode
    rcases List.mem_append.mp hnode with hold | hlast
    · exact Or.inl hold
    · rw [List.mem_singleton] at hlast
      subst hlast
      exact Or.inr ⟨hnew, hfree⟩
  · intro node hapart hnodes
    apply insertBefore_next_ne
    · rintro rfl
      exact hnodes (by simp)
    · rintro rfl
      exact hapart hring.path.prev_mem
  · intro node hapart hnodes
    apply insertBefore_prev_ne
    · rintro rfl
      exact hnodes (by simp)
    · rintro rfl
      exact hapart List.mem_cons_self

theorem Rings.unlink (hrings : links.Rings IsHead slots) (hhead : IsHead head)
    (hslot : slots head = front ++ node :: back) :
    (links.unlink node).Rings IsHead (Function.update slots head (front ++ back)) := by
  have hring := hrings.ring head hhead
  rw [hslot] at hring
  obtain ⟨hfront, hback⟩ := path_append.mp hring.path
  have hsub : (head :: (front ++ back)).Sublist (head :: (front ++ node :: back)) :=
    ((List.Sublist.refl front).append (List.sublist_cons_self node back)).cons_cons head
  have hnodup := hring.nodup.sublist hsub
  refine hrings.update hhead
    ⟨hfront.unlink hback hnodup (List.nodup_cons.mp hnodup).1, hnodup⟩ ?_ ?_ ?_
  · intro other hother
    rw [hslot]
    exact Or.inl (((List.Sublist.refl front).append (List.sublist_cons_self node back)).mem hother)
  · intro other hapart _
    rw [Links.unlink, setPrev_next, setNext_next_ne]
    rintro rfl
    apply hapart
    have hprev := hfront.prev_mem
    rw [hslot]
    simp only [List.mem_cons, List.mem_append] at hprev ⊢
    tauto
  · intro other hapart _
    rw [Links.unlink, setPrev_prev_ne, setNext_prev]
    rintro rfl
    apply hapart
    have hnext := hback.next_mem
    rw [hslot]
    simp only [List.mem_cons, List.mem_append] at hnext ⊢
    tauto

theorem Rings.reset (hrings : links.Rings IsHead slots) (hhead : IsHead head) :
    (links.reset head).Rings IsHead (Function.update slots head []) := by
  refine hrings.update hhead (reset_ring links head) ?_ ?_ ?_
  · intro node hnode
    cases hnode
  · intro node hapart _
    rw [Links.reset, setPrev_next, setNext_next_ne]
    rintro rfl
    exact hapart List.mem_cons_self
  · intro node hapart _
    rw [Links.reset, setPrev_prev_ne, setNext_prev]
    rintro rfl
    exact hapart List.mem_cons_self

/-- Resetting a head leaves an empty ring empty, be it its own or another's. -/
theorem Ring.reset {first : Node} (hring : links.Ring first []) (head : Node) :
    (links.reset head).Ring first [] := by
  by_cases hsame : first = head
  · subst hsame
    exact reset_ring links first
  · apply hring.congr
    · intro node hnode
      rw [List.mem_singleton] at hnode
      subst hnode
      rw [Links.reset, setPrev_next, setNext_next_ne _ _ hsame]
    · intro node hnode
      rw [List.mem_singleton] at hnode
      subst hnode
      rw [Links.reset, setPrev_prev_ne _ _ hsame, setNext_prev]

/-- Once every head is linked with itself, the rings are empty. -/
theorem rings_resetAll {heads : List Node} (hheads : ∀ head, IsHead head → head ∈ heads)
    (links : Links Node) : (heads.foldl Links.reset links).Rings IsHead fun _ => [] := by
  have hempty : ∀ head ∈ heads, (heads.foldl Links.reset links).Ring head [] := by
    clear hheads
    induction heads using List.reverseRecOn with
    | nil => simp
    | append_singleton front last ih =>
        intro head hhead
        rw [List.foldl_append]
        rcases List.mem_append.mp hhead with hfront | hlast
        · exact (ih head hfront).reset last
        · rw [List.mem_singleton] at hlast
          subst hlast
          exact reset_ring _ head
  refine ⟨fun head hhead => hempty head (hheads head hhead), ?_, ?_⟩
  · simp
  · simp

end Links

end ServiceFrame.Foundation
