import KkProxy.Shared.Multimap
import KkProxy.Shared.Runs
import Mathlib.Data.Char
import Mathlib.Data.List.Forall2
import Mathlib.Data.List.Lex

set_option autoImplicit false

namespace KkProxy.Http

open Runs
open Shared (Multimap)

-- A `std::string`; a `std::string_view` that is passed is the text it refers to.
abbrev Text := List Char

structure HeaderValue where
  value : Text
  sensitive : Bool
deriving DecidableEq, Repr

abbrev HeaderMap := Multimap Text HeaderValue

structure Headers where
  headers : HeaderMap

namespace Headers

variable (h : Headers) (name value : Text) (sensitive : Bool)

def default : Headers := { headers := .empty }

def copy : Headers := { headers := h.headers }

def add : Headers := { headers := h.headers.emplace name { value, sensitive } }

def set : Headers :=
  let range := h.headers.equalRange name
  if range.1 = range.2 then { headers := h.headers.emplace name { value, sensitive } }
  else { headers := h.headers.fill { value, sensitive } range.1 (range.2 - range.1) }

def get : Text :=
  let range := h.headers.equalRange name
  if range.1 = range.2 then [] else (h.headers.get? range.1).elim [] HeaderValue.value

def entry : Option HeaderValue :=
  let range := h.headers.equalRange name
  if range.1 = range.2 then none else h.headers.get? range.1

theorem get_eq_entry : h.get name = (h.entry name).elim [] HeaderValue.value := by
  simp only [get, entry]
  split_ifs <;> rfl

theorem entry_eq_head? : h.entry name = (h.headers.values name).head? := by
  simp only [entry, Multimap.equalRange, Multimap.range_empty_iff]
  split_ifs with none
  · rw [none]
    rfl
  · exact h.headers.get?_lowerBound name none

theorem values_add (n : Text) :
    (h.add name value sensitive).headers.values n =
      if n = name then h.headers.values name ++ [⟨value, sensitive⟩] else h.headers.values n := by
  simp only [add, Multimap.values_emplace]
  split_ifs <;> rfl

theorem values_set (n : Text) :
    (h.set name value sensitive).headers.values n =
      if n = name then List.replicate (max 1 (h.headers.values name).length) { value, sensitive }
      else h.headers.values n := by
  simp only [set, Multimap.equalRange, Multimap.range_empty_iff]
  split_ifs with none same same
  · simp [Multimap.values_emplace, same, none]
  · simp [Multimap.values_emplace, same]
  · have some : max 1 (h.headers.values name).length = (h.headers.values name).length :=
      Nat.max_eq_right (List.length_pos_iff.mpr none)
    simp [Multimap.values_fill, same, some]
  · simp [Multimap.values_fill, same]

example :
    let h := (default.add ['a'] ['1'] false).add ['a'] ['2'] true
    (h.set ['a'] ['3'] true).headers.values ['a'] = [⟨['3'], true⟩, ⟨['3'], true⟩] := by decide

def SameAt (h' : Headers) : Prop := h'.get name = h.get name ∧ h'.entry name = h.entry name

theorem SameAt.of_values {h h' : Headers} {name : Text}
    (same : h'.headers.values name = h.headers.values name) : h.SameAt name h' := by
  have entry : h'.entry name = h.entry name := by rw [entry_eq_head?, entry_eq_head?, same]
  exact ⟨by rw [get_eq_entry, get_eq_entry, entry], entry⟩

end Headers

section Reference

abbrev Reference := Text → List HeaderValue

namespace Reference

variable (m : Reference) (name value : Text) (sensitive : Bool)

def add : Reference := Function.update m name (m name ++ [⟨value, sensitive⟩])

def set : Reference := Function.update m name [⟨value, sensitive⟩]

def get : Text := (m name).head?.elim [] HeaderValue.value

end Reference

end Reference

section Overwriting

variable {α : Type}

/--
`values` is `list` with any number of further copies of its first element behind that one: those
that an earlier `set` has overwritten.
-/
inductive Overwritten : List α → List α → Prop where
  | none : Overwritten [] []
  | some (further : Nat) (v : α) (rest : List α) :
      Overwritten (List.replicate (further + 1) v ++ rest) (v :: rest)

namespace Overwritten

theorem refl (list : List α) : Overwritten list list := by
  cases list with
  | nil => exact .none
  | cons v rest => exact .some 0 v rest

theorem head?_eq {values list : List α} (overwritten : Overwritten values list) :
    values.head? = list.head? := by
  cases overwritten with
  | none => rfl
  | some further v rest => rfl

theorem snoc {values list : List α} (overwritten : Overwritten values list) (w : α) :
    Overwritten (values ++ [w]) (list ++ [w]) := by
  cases overwritten with
  | none => exact refl [w]
  | some further v rest =>
    rw [List.append_assoc]
    exact .some further v (rest ++ [w])

theorem replicate (n : Nat) (w : α) : Overwritten (List.replicate (max 1 n) w) [w] := by
  obtain ⟨further, count⟩ := Nat.exists_eq_add_of_le' (Nat.le_max_left 1 n)
  have overwritten := Overwritten.some further w []
  rwa [List.append_nil, ← count] at overwritten

end Overwritten

end Overwriting

section Models

def Models (h : Headers) (m : Reference) : Prop :=
  ∀ name, Overwritten (h.headers.values name) (m name)

variable {h : Headers} {m : Reference} (models : Models h m) (name value : Text) (sensitive : Bool)
include models

theorem Models.add : Models (h.add name value sensitive) (m.add name value sensitive) := by
  intro n
  rw [Headers.values_add, Reference.add, Function.update_apply]
  split_ifs with same
  · exact (models name).snoc _
  · exact models n

theorem Models.set : Models (h.set name value sensitive) (m.set name value sensitive) := by
  intro n
  rw [Headers.values_set, Reference.set, Function.update_apply]
  split_ifs with same
  · apply Overwritten.replicate
  · exact models n

end Models

section Objects

structure Interface (σ : Type) where
  default : σ
  ofMap : HeaderMap → σ
  copy : σ → σ
  add : σ → Text → Text → Bool → σ
  set : σ → Text → Text → Bool → σ

inductive Op where
  | default
  | ofMap (contents : HeaderMap)
  | copy (object : Nat)
  | add (object : Nat) (name value : Text) (sensitive : Bool)
  | set (object : Nat) (name value : Text) (sensitive : Bool)

def Op.on : Op → Option (Nat × Text)
  | .add object name _ _ | .set object name _ _ => some (object, name)
  | _ => none

def Interface.step {σ : Type} (api : Interface σ) (objects : List σ) : Op → Option (List σ)
  | .default => some (objects ++ [api.default])
  | .ofMap contents => some (objects ++ [api.ofMap contents])
  | .copy object => objects[object]?.map fun o => objects ++ [api.copy o]
  | .add object name value sensitive =>
    objects[object]?.map fun o => objects.set object (api.add o name value sensitive)
  | .set object name value sensitive =>
    objects[object]?.map fun o => objects.set object (api.set o name value sensitive)

def Headers.api : Interface Headers where
  default := .default
  ofMap contents := { headers := contents }
  copy := .copy
  add := .add
  set := .set

def Reference.api : Interface Reference where
  default := fun _ => []
  ofMap contents := contents.values
  copy := id
  add := .add
  set := .set

section Lists

variable {α β : Type} {related : α → β → Prop} {first : List α} {second : List β}
  (each : List.Forall₂ related first second)
include each

theorem rel_getElem? (i : Nat) : Option.Rel related first[i]? second[i]? := by
  induction each generalizing i with
  | nil => exact .none
  | cons head _ ih =>
    cases i with
    | zero => exact .some head
    | succ i => exact ih i

theorem rel_set {a : α} {b : β} (new : related a b) (i : Nat) :
    List.Forall₂ related (first.set i a) (second.set i b) := by
  induction each generalizing i with
  | nil => exact .nil
  | cons head rest ih =>
    cases i with
    | zero => exact .cons new rest
    | succ i => exact .cons head (ih i)

theorem rel_snoc {a : α} {b : β} (new : related a b) :
    List.Forall₂ related (first ++ [a]) (second ++ [b]) :=
  List.rel_append each (.cons new .nil)

end Lists

theorem step_models {objects : List Headers} {models : List Reference}
    (related : List.Forall₂ Models objects models) (op : Op) :
    Option.Rel (List.Forall₂ Models) (Headers.api.step objects op)
      (Reference.api.step models op) := by
  have onObject (object : Nat) {change : Headers → List Headers}
      {change' : Reference → List Reference}
      (changes : ∀ h m, Models h m → List.Forall₂ Models (change h) (change' m)) :
      Option.Rel (List.Forall₂ Models) (objects[object]?.map change)
        (models[object]?.map change') := by
    have found := rel_getElem? related object
    generalize objects[object]? = h at found
    generalize models[object]? = m at found
    cases found with
    | none => exact .none
    | some both => exact .some (changes _ _ both)
  cases op with
  | default => exact .some (rel_snoc related fun _ => .none)
  | ofMap contents => exact .some (rel_snoc related fun _ => .refl _)
  | copy object => exact onObject object fun _ _ both => rel_snoc related both
  | add object name value sensitive =>
    exact onObject object fun _ _ both => rel_set related (both.add name value sensitive) object
  | set object name value sensitive =>
    exact onObject object fun _ _ both => rel_set related (both.set name value sensitive) object

end Objects

section Framing

/--
What the operations leave of the objects: one they are not on is the same, and so is what a read
of any object gives for a name they are not on.
-/
def Frames (ops : List Op) (before after : List Headers) : Prop :=
  ∀ object h, before[object]? = some h → ∃ h', after[object]? = some h' ∧
    ((∀ op ∈ ops, ∀ name, op.on ≠ some (object, name)) → h' = h) ∧
    ∀ name, (∀ op ∈ ops, op.on ≠ some (object, name)) → h.SameAt name h'

theorem Frames.nil (objects : List Headers) : Frames [] objects objects :=
  fun _ h found => ⟨h, found, fun _ => rfl, fun _ _ => ⟨rfl, rfl⟩⟩

theorem Frames.append {first second : List Op} {before between after : List Headers}
    (frames : Frames first before between) (later : Frames second between after) :
    Frames (first ++ second) before after := by
  intro object h found
  obtain ⟨h', found', same', read'⟩ := frames object h found
  obtain ⟨h'', found'', same'', read''⟩ := later object h' found'
  refine ⟨h'', found'', fun none => ?_, fun name none => ?_⟩
  · rw [same'' fun op member => none op (List.mem_append_right first member),
      same' fun op member => none op (List.mem_append_left second member)]
  · have one := read' name fun op member => none op (List.mem_append_left second member)
    have two := read'' name fun op member => none op (List.mem_append_right first member)
    exact ⟨two.1.trans one.1, two.2.trans one.2⟩

theorem Frames.snoc (op : Op) (objects : List Headers) (new : Headers) :
    Frames [op] objects (objects ++ [new]) := by
  intro object h found
  have inside := (List.getElem?_eq_some_iff.mp found).1
  exact ⟨h, by rw [List.getElem?_append_left inside, found], fun _ => rfl, fun _ _ => ⟨rfl, rfl⟩⟩

theorem Frames.change {op : Op} {object : Nat} {name : Text} (on : op.on = some (object, name))
    {objects : List Headers} {h new : Headers} (found : objects[object]? = some h)
    (others : ∀ n, n ≠ name → new.headers.values n = h.headers.values n) :
    Frames [op] objects (objects.set object new) := by
  intro object' h' found'
  by_cases same : object = object'
  · subst same
    obtain rfl : h = h' := Option.some.inj (found.symm.trans found')
    have inside := (List.getElem?_eq_some_iff.mp found).1
    refine ⟨new, List.getElem?_set_self inside, fun none => ?_, fun n none => ?_⟩
    · exact absurd on (none op (by simp) name)
    · apply Headers.SameAt.of_values
      refine others n fun same => none op (by simp) ?_
      rw [same, on]
  · exact ⟨h', by rw [List.getElem?_set_ne same, found'], fun _ => rfl, fun _ _ => ⟨rfl, rfl⟩⟩

theorem step_frames {objects next : List Headers} {op : Op}
    (taken : Headers.api.step objects op = some next) : Frames [op] objects next := by
  cases op with
  | default | ofMap contents =>
    obtain rfl := Option.some.inj taken
    apply Frames.snoc
  | copy object =>
    obtain ⟨h, found, rfl⟩ := Option.map_eq_some_iff.mp taken
    apply Frames.snoc
  | add object name value sensitive =>
    obtain ⟨h, found, rfl⟩ := Option.map_eq_some_iff.mp taken
    refine Frames.change rfl found fun n other => ?_
    exact (h.values_add name value sensitive n).trans (if_neg other)
  | set object name value sensitive =>
    obtain ⟨h, found, rfl⟩ := Option.map_eq_some_iff.mp taken
    refine Frames.change rfl found fun n other => ?_
    exact (h.values_set name value sensitive n).trans (if_neg other)

theorem run_frames {objects final : List Headers} {ops : List Op}
    (reached : run Headers.api.step objects ops = some final) : Frames ops objects final := by
  induction ops generalizing objects with
  | nil =>
    obtain rfl := Option.some.inj reached
    exact .nil objects
  | cons op rest ih =>
    obtain ⟨next, taken, tail⟩ := run_cons_some reached
    exact (step_frames taken).append (ih tail)

end Framing

structure Agrees (h : Headers) (m : Reference) : Prop where
  get : ∀ name, h.get name = m.get name
  entry : ∀ name, h.entry name = (m name).head?

theorem Models.agrees {h : Headers} {m : Reference} (models : Models h m) : Agrees h m := by
  have entry (name : Text) : h.entry name = (m name).head? := by
    rw [Headers.entry_eq_head?, (models name).head?_eq]
  exact { get := fun name => by rw [Headers.get_eq_entry, entry, Reference.get], entry }

structure RefinesLists (ops : List Op) : Prop where
  answers : Option.Rel (List.Forall₂ Agrees) (run Headers.api.step [] ops)
    (run Reference.api.step [] ops)
  frame : ∀ objects final, run Headers.api.step objects ops = some final →
    Frames ops objects final

theorem headers_refine_lists (ops : List Op) : RefinesLists ops where
  answers := by
    have models := run_rel (fun _ _ op related => step_models related op) ops .nil
    generalize run Headers.api.step [] ops = objects at models
    generalize run Reference.api.step [] ops = references at models
    cases models with
    | none => exact .none
    | some each => exact .some (each.imp fun _ _ => Models.agrees)
  frame := fun _ _ => run_frames

end KkProxy.Http
