/-
A cache of objects that are made when they are first asked for.

An access takes the object of a key, or a fresh one where the cache has none,
lets it act on a request and stores it again.  A cache that gives up entries
behaves like one that keeps them all as long as nobody can tell the entry that
was given up from a fresh one: `outputs_eq_iff`.
-/
import Mathlib.Data.List.AList
import Mathlib.Data.List.Perm.Subperm

namespace Cache

structure Entry (V : Type) where
  value : V
  accessed : Nat

abbrev Entries (κ V : Type) := AList (fun _ : κ => Entry V)

/-- What a cache does not keep: which entries it takes for gone, by the time of
their last access, and what it leaves of the entries after an access. -/
structure Retention (κ V : Type) where
  expired : Nat → Nat → Bool
  trim : Entries κ V → Entries κ V

/-- A cache that never gives up an entry. -/
def Retention.keeping {κ V : Type} : Retention κ V := ⟨fun _ _ => false, id⟩

/-- A cache that gives up entries that were idle for too long.  When there are
too many, `victims` leaves out some. -/
def Retention.bounded {κ V : Type} (timeToIdle capacity : Nat)
    (victims : Entries κ V → Entries κ V) : Retention κ V where
  expired accessed now := accessed + timeToIdle ≤ now
  trim c := if capacity < c.entries.length then victims c else c

/-- Objects with an operation. -/
structure Object (V R O : Type) where
  fresh : Nat → V
  act : V → R → Nat → V × O

structure Call (κ R : Type) where
  key : κ
  request : R
  now : Nat

section Access

variable {κ V R O : Type} [DecidableEq κ] (obj : Object V R O) (ret : Retention κ V)

/-- The object that a call finds in the cache, or is given fresh. -/
def taken (c : Entries κ V) (call : Call κ R) : V :=
  match c.lookup call.key with
  | some e => if ret.expired e.accessed call.now then obj.fresh call.now else e.value
  | none => obj.fresh call.now

def access (c : Entries κ V) (call : Call κ R) : Entries κ V × O :=
  let next := obj.act (taken obj ret c call) call.request call.now
  (ret.trim (c.insert call.key ⟨next.1, call.now⟩), next.2)

def outputs : Entries κ V → List (Call κ R) → List O
  | _, [] => []
  | c, call :: calls => (access obj ret c call).2 :: outputs (access obj ret c call).1 calls

/-- The entry that a call finds expired acts as a fresh one would. -/
def Unnoticed (c : Entries κ V) (call : Call κ R) : Prop :=
  ∀ e ∈ c.lookup call.key, ret.expired e.accessed call.now = true →
    obj.act e.value call.request call.now = obj.act (obj.fresh call.now) call.request call.now

/-- A condition of every call on the cache it finds, when no entry is given up. -/
def EachCall (P : Entries κ V → Call κ R → Prop) : Entries κ V → List (Call κ R) → Prop
  | _, [] => True
  | c, call :: calls => P c call ∧ EachCall P (access obj .keeping c call).1 calls

end Access

section Transparency

variable {κ V R O : Type} [DecidableEq κ] {obj : Object V R O} {ret : Retention κ V}

theorem taken_of_lookup {c : Entries κ V} {call : Call κ R} {e : Entry V}
    (h : c.lookup call.key = some e) :
    taken obj ret c call =
      if ret.expired e.accessed call.now then obj.fresh call.now else e.value := by
  rw [taken, h]

theorem taken_of_none {c : Entries κ V} {call : Call κ R} (h : c.lookup call.key = none) :
    taken obj ret c call = obj.fresh call.now := by
  rw [taken, h]

/-- A call notices the loss of an entry by what the object does. -/
theorem unnoticed_iff {c : Entries κ V} {call : Call κ R} :
    Unnoticed obj ret c call ↔
      obj.act (taken obj .keeping c call) call.request call.now =
        obj.act (taken obj ret c call) call.request call.now := by
  unfold Unnoticed
  cases hlookup : c.lookup call.key with
  | none => simp [taken_of_none hlookup]
  | some e =>
    rw [taken_of_lookup hlookup, taken_of_lookup hlookup]
    cases hexpired : ret.expired e.accessed call.now with
    | false => simp [Retention.keeping, hexpired]
    | true => simp [Retention.keeping, hexpired]

/-- A cache that has room for all keys leaves nothing out. -/
theorem trim_insert {timeToIdle capacity : Nat} {victims : Entries κ V → Entries κ V}
    {keys : List κ} (hroom : keys.length ≤ capacity) {c : Entries κ V} (hc : c.keys ⊆ keys)
    {k : κ} (hk : k ∈ keys) (e : Entry V) :
    (Retention.bounded timeToIdle capacity victims).trim (c.insert k e) = c.insert k e := by
  have hsub : (c.insert k e).keys ⊆ keys := by
    intro j hj
    rcases (AList.mem_insert _).mp (AList.mem_keys.mp hj) with rfl | hj
    · exact hk
    · exact hc (AList.mem_keys.mpr hj)
  have hle : (c.insert k e).entries.length ≤ capacity := by
    calc (c.insert k e).entries.length = (c.insert k e).keys.length := (List.length_map _).symm
      _ ≤ keys.length := (AList.keys_nodup _).subperm hsub |>.length_le
      _ ≤ capacity := hroom
  exact if_neg (Nat.not_lt.mpr hle)

/-- What is known of the objects in a cache: `I` holds of an object and the time
of its last access, as long as the requests are `ok` and time does not go back. -/
structure Object.Keeps (obj : Object V R O) (ok : R → Prop) (I : V → Nat → Prop) : Prop where
  fresh : ∀ r now, ok r → I (obj.act (obj.fresh now) r now).1 now
  act : ∀ v accessed r now, ok r → I v accessed → accessed ≤ now → I (obj.act v r now).1 now

/-- The entries at the time `last`. -/
structure Holds (I : V → Nat → Prop) (keys : List κ) (last : Nat) (c : Entries κ V) : Prop where
  value : ∀ k, ∀ e ∈ c.lookup k, I e.value e.accessed ∧ e.accessed ≤ last
  keys : c.keys ⊆ keys

theorem Holds.empty (I : V → Nat → Prop) (keys : List κ) (last : Nat) :
    Holds I keys last (∅ : Entries κ V) where
  value _ _ h := by cases h
  keys := by simp

/-- An access keeps what is known of the objects. -/
theorem Holds.access {ok : R → Prop} {I : V → Nat → Prop} (hkeeps : obj.Keeps ok I)
    {keys : List κ} {last : Nat} {c : Entries κ V} (h : Holds I keys last c) {call : Call κ R}
    (hok : ok call.request) (hkey : call.key ∈ keys) (hnow : last ≤ call.now) :
    Holds I keys call.now (access obj .keeping c call).1 where
  value k e he := by
    rw [Option.mem_def] at he
    by_cases hk : k = call.key
    · subst hk
      rw [show (Cache.access obj .keeping c call).1 = c.insert call.key _ from rfl,
        AList.lookup_insert] at he
      rw [← Option.some.inj he]
      refine ⟨?_, Nat.le_refl _⟩
      cases hlookup : c.lookup call.key with
      | none =>
        rw [taken_of_none hlookup]
        exact hkeeps.fresh _ _ hok
      | some e =>
        obtain ⟨hI, hle⟩ := h.value call.key e hlookup
        rw [taken_of_lookup hlookup]
        exact hkeeps.act _ _ _ _ hok hI (Nat.le_trans hle hnow)
    · rw [show (Cache.access obj .keeping c call).1 = c.insert call.key _ from rfl,
        AList.lookup_insert_ne hk] at he
      obtain ⟨hI, hle⟩ := h.value k e he
      exact ⟨hI, Nat.le_trans hle hnow⟩
  keys := by
    intro j hj
    rcases (AList.mem_insert _).mp (AList.mem_keys.mp hj) with rfl | hj
    · exact hkey
    · exact h.keys (AList.mem_keys.mpr hj)

/-- What every call finds true of a cache whose objects are kept known. -/
theorem EachCall.of_holds {ok : R → Prop} {I : V → Nat → Prop} (hkeeps : obj.Keeps ok I)
    {keys : List κ} {P : Entries κ V → Call κ R → Prop}
    (hP : ∀ c call last, Holds I keys last c → ok call.request → last ≤ call.now → P c call)
    {calls : List (Call κ R)} (hok : ∀ call ∈ calls, ok call.request)
    (hkeys : ∀ call ∈ calls, call.key ∈ keys) {last : Nat}
    (hsorted : (last :: calls.map Call.now).Pairwise (· ≤ ·)) {c : Entries κ V}
    (hc : Holds I keys last c) : EachCall obj P c calls := by
  induction calls generalizing c last with
  | nil => trivial
  | cons call calls ih =>
    obtain ⟨hfirst, hrest⟩ := List.pairwise_cons.mp hsorted
    have hnow : last ≤ call.now := hfirst call.now List.mem_cons_self
    have hhead := hok call List.mem_cons_self
    exact ⟨hP c call last hc hhead hnow, ih (fun d hd => hok d (List.mem_cons_of_mem call hd))
      (fun d hd => hkeys d (List.mem_cons_of_mem call hd)) hrest
      (hc.access hkeeps hhead (hkeys call List.mem_cons_self) hnow)⟩

/-- A condition that says the same of every cache whose objects are known. -/
theorem EachCall.congr {ok : R → Prop} {I : V → Nat → Prop} (hkeeps : obj.Keeps ok I)
    {keys : List κ} {P Q : Entries κ V → Call κ R → Prop}
    (hPQ : ∀ c call last, Holds I keys last c → ok call.request → last ≤ call.now →
      (P c call ↔ Q c call))
    {calls : List (Call κ R)} (hok : ∀ call ∈ calls, ok call.request)
    (hkeys : ∀ call ∈ calls, call.key ∈ keys) {last : Nat}
    (hsorted : (last :: calls.map Call.now).Pairwise (· ≤ ·)) {c : Entries κ V}
    (hc : Holds I keys last c) : EachCall obj P c calls ↔ EachCall obj Q c calls := by
  induction calls generalizing c last with
  | nil => rfl
  | cons call calls ih =>
    obtain ⟨hfirst, hrest⟩ := List.pairwise_cons.mp hsorted
    have hnow : last ≤ call.now := hfirst call.now List.mem_cons_self
    have hhead := hok call List.mem_cons_self
    exact and_congr (hPQ c call last hc hhead hnow)
      (ih (fun d hd => hok d (List.mem_cons_of_mem call hd))
        (fun d hd => hkeys d (List.mem_cons_of_mem call hd)) hrest
        (hc.access hkeeps hhead (hkeys call List.mem_cons_self) hnow))

/-- Two different objects that answer alike are alike, as far as they are known. -/
def Object.Tells (obj : Object V R O) (ok : R → Prop) (I : V → Nat → Prop) : Prop :=
  ∀ v accessed r now, ok r → I v accessed → accessed ≤ now →
    (obj.act v r now).2 = (obj.act (obj.fresh now) r now).2 →
      obj.act v r now = obj.act (obj.fresh now) r now

/-- A cache that gives up idle entries answers like one that keeps them all if and
only if no call notices. -/
theorem outputs_eq_iff {timeToIdle capacity : Nat} {victims : Entries κ V → Entries κ V}
    {ok : R → Prop} {I : V → Nat → Prop} (hkeeps : obj.Keeps ok I) (htells : obj.Tells ok I)
    {keys : List κ} (hroom : keys.length ≤ capacity) {calls : List (Call κ R)}
    (hok : ∀ call ∈ calls, ok call.request) (hkeys : ∀ call ∈ calls, call.key ∈ keys)
    {last : Nat} (hsorted : (last :: calls.map Call.now).Pairwise (· ≤ ·)) {c : Entries κ V}
    (hc : Holds I keys last c) :
    outputs obj (.bounded timeToIdle capacity victims) c calls = outputs obj .keeping c calls ↔
      EachCall obj (Unnoticed obj (.bounded timeToIdle capacity victims)) c calls := by
  induction calls generalizing c last with
  | nil => simp [outputs, EachCall]
  | cons call calls ih =>
    obtain ⟨hfirst, hrest⟩ := List.pairwise_cons.mp hsorted
    have hnow : last ≤ call.now := hfirst call.now List.mem_cons_self
    have hkey := hkeys call List.mem_cons_self
    have hhead := hok call List.mem_cons_self
    have hnext := ih (fun d hd => hok d (List.mem_cons_of_mem call hd))
      (fun d hd => hkeys d (List.mem_cons_of_mem call hd)) hrest
      (hc.access hkeeps hhead hkey hnow)
    have hsame : Unnoticed obj (.bounded timeToIdle capacity victims) c call →
        access obj (.bounded timeToIdle capacity victims) c call = access obj .keeping c call := by
      intro h
      unfold access
      rw [← unnoticed_iff.mp h]
      have htrim : ∀ e, (Retention.bounded timeToIdle capacity victims).trim
          (c.insert call.key e) = c.insert call.key e := trim_insert hroom hc.keys hkey
      exact Prod.ext (htrim _) rfl
    simp only [outputs, EachCall, List.cons.injEq]
    constructor
    · rintro ⟨hout, houts⟩
      have hunnoticed : Unnoticed obj (.bounded timeToIdle capacity victims) c call := by
        intro e he hexpired
        obtain ⟨hI, hle⟩ := hc.value call.key e he
        refine htells _ _ _ _ hhead hI (Nat.le_trans hle hnow) ?_
        have hgone : taken obj (.bounded timeToIdle capacity victims) c call =
            obj.fresh call.now := by rw [taken_of_lookup he, if_pos hexpired]
        have hkept : taken obj .keeping c call = e.value := taken_of_lookup he
        rw [access, access, hgone, hkept] at hout
        exact hout.symm
      rw [hsame hunnoticed] at houts
      exact ⟨hunnoticed, hnext.mp houts⟩
    · rintro ⟨hunnoticed, hcalls⟩
      rw [hsame hunnoticed]
      exact ⟨rfl, hnext.mpr hcalls⟩

end Transparency

end Cache
