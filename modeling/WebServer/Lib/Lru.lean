import Mathlib.Data.List.Nodup
import WebServer.Lib.Table

/-!
# WebServer.Lib.Lru

A map and a linked list of its keys, the least recently used one in front. Every entry of the map has
the address of the node of its key, as the entries of a hash map have an iterator into a list.

An operation on a node that is not in the list is undefined, which is `none` here.

* `Coherent`: the nodes are the keys, and every entry has the address of its own node.
* `Coherent.visit`, `Coherent.insert`, `Coherent.evictOldest`, `Coherent.eraseWhere`: every operation
  keeps it, and is defined where it holds.
-/

namespace WebServer

/-- A node of the list: where it is and what it holds. -/
structure Node (κ : Type) where
  address : ℕ
  key : κ
  deriving DecidableEq

structure Slot (α : Type) where
  value : α
  position : ℕ
  deriving DecidableEq

structure Lru (κ α : Type) where
  entries : Table κ (Slot α)
  order : List (Node κ)
  /-- Addresses from here on were never used. -/
  nextAddress : ℕ

namespace Lru

variable {κ α : Type} [DecidableEq κ]

/-- The other nodes. -/
def without (position : ℕ) (order : List (Node κ)) : List (Node κ) :=
  order.filter fun n => n.address ≠ position

/-- `list::erase` -/
def eraseNode (position : ℕ) (order : List (Node κ)) : Option (List (Node κ)) :=
  if position ∈ order.map Node.address then some (without position order) else none

/-- `list::splice` of one node to the end of its own list. -/
def spliceToEnd (position : ℕ) (order : List (Node κ)) : Option (List (Node κ)) :=
  match order.find? fun n => n.address = position with
  | none => none
  | some n => some (without position order ++ [n])

def pushBack (l : Lru κ α) (k : κ) : Lru κ α :=
  { l with order := l.order ++ [⟨l.nextAddress, k⟩], nextAddress := l.nextAddress + 1 }

def popBack (l : Lru κ α) : Lru κ α := { l with order := l.order.dropLast }

/-- `std::prev(order.end())` -/
def backPosition (l : Lru κ α) : Option ℕ := l.order.getLast?.map Node.address

def store (l : Lru κ α) (k : κ) (s : Slot α) : Lru κ α := { l with entries := l.entries.insert k s }

/-- The entry of the first key, and its node. -/
def evictOldest (l : Lru κ α) : Lru κ α :=
  match l.order with
  | [] => l
  | n :: rest => { l with entries := l.entries.erase n.key, order := rest }

/-- The node of an entry goes to the end, and the entry gets another value. -/
def visit (l : Lru κ α) (k : κ) (s : Slot α) (value : α) : Option (Lru κ α) :=
  (spliceToEnd s.position l.order).map fun order =>
    { l.store k { s with value := value } with order := order }

/-- The loop over these entries of the map, in the order in which it meets them. -/
def eraseLoop (p : α → Bool) (l : Lru κ α) : List (Σ _ : κ, Slot α) → Option (Lru κ α)
  | [] => some l
  | ⟨k, s⟩ :: rest =>
    if p s.value then
      match eraseNode s.position l.order with
      | none => none
      | some order => eraseLoop p { l with entries := l.entries.erase k, order := order } rest
    else eraseLoop p l rest

def eraseWhere (l : Lru κ α) (p : α → Bool) : Option (Lru κ α) := eraseLoop p l l.entries.entries

/-! ## The invariant -/

structure Coherent (l : Lru κ α) : Prop where
  addresses : (l.order.map Node.address).Nodup
  allocated : ∀ n ∈ l.order, n.address < l.nextAddress
  keys : (l.order.map Node.key).Nodup
  listed : ∀ k s, l.entries.lookup k = some s → ⟨s.position, k⟩ ∈ l.order
  stored : ∀ n ∈ l.order, ∃ s, l.entries.lookup n.key = some s

section Coherent

variable {l : Lru κ α} {k : κ} {s : Slot α}

theorem Coherent.empty : (⟨∅, [], 0⟩ : Lru κ α).Coherent :=
  ⟨by simp, by simp, by simp, by simp, by simp⟩

theorem Coherent.eq_of_address (h : l.Coherent) {m n : Node κ} (hm : m ∈ l.order) (hn : n ∈ l.order)
    (heq : m.address = n.address) : m = n := List.inj_on_of_nodup_map h.addresses hm hn heq

theorem Coherent.eq_of_key (h : l.Coherent) {m n : Node κ} (hm : m ∈ l.order) (hn : n ∈ l.order)
    (heq : m.key = n.key) : m = n := List.inj_on_of_nodup_map h.keys hm hn heq

theorem Coherent.mem_keys_iff (h : l.Coherent) (k : κ) :
    k ∈ l.order.map Node.key ↔ k ∈ l.entries := by
  rw [← AList.lookup_isSome, Option.isSome_iff_exists, List.mem_map]
  constructor
  · rintro ⟨n, hn, rfl⟩
    exact h.stored n hn
  · rintro ⟨s, hs⟩
    exact ⟨_, h.listed k s hs, rfl⟩

theorem Coherent.length_keys (h : l.Coherent) : l.entries.keys.length = l.order.length := by
  have hperm : l.entries.keys.Perm (l.order.map Node.key) := by
    rw [List.perm_ext_iff_of_nodup (AList.keys_nodup _) h.keys]
    intro k
    rw [← AList.mem_keys, h.mem_keys_iff]
  simpa using hperm.length_eq

/-- Without the node of a key, the nodes are those of the other keys. -/
theorem Coherent.mem_without_iff (h : l.Coherent) (hs : l.entries.lookup k = some s) {n : Node κ} :
    n ∈ without s.position l.order ↔ n ∈ l.order ∧ n.key ≠ k := by
  rw [without, List.mem_filter, decide_eq_true_eq]
  refine and_congr_right fun hn => not_congr ⟨fun heq => ?_, fun heq => ?_⟩
  · rw [h.eq_of_address hn (h.listed k s hs) heq]
  · rw [h.eq_of_key hn (h.listed k s hs) heq]

/-- Nodes may go, with their entries. -/
theorem Coherent.shrink (h : l.Coherent) {entries : Table κ (Slot α)} {order : List (Node κ)}
    (hsub : order.Sublist l.order)
    (hlisted : ∀ k s, entries.lookup k = some s → l.entries.lookup k = some s ∧ ⟨s.position, k⟩ ∈ order)
    (hstored : ∀ n ∈ order, ∀ s, l.entries.lookup n.key = some s → entries.lookup n.key = some s) :
    (⟨entries, order, l.nextAddress⟩ : Lru κ α).Coherent where
  addresses := h.addresses.sublist (hsub.map _)
  allocated n hn := h.allocated n (hsub.subset hn)
  keys := h.keys.sublist (hsub.map _)
  listed k s hs := (hlisted k s hs).2
  stored n hn := by
    obtain ⟨s, hs⟩ := h.stored n (hsub.subset hn)
    exact ⟨s, hstored n hn s hs⟩

/-! ### Visits -/

theorem Coherent.spliceToEnd (h : l.Coherent) (hs : l.entries.lookup k = some s) :
    Lru.spliceToEnd s.position l.order = some (without s.position l.order ++ [⟨s.position, k⟩]) := by
  have hmem := h.listed k s hs
  unfold Lru.spliceToEnd
  cases hfind : l.order.find? fun n => n.address = s.position with
  | none =>
    have hnone := List.find?_eq_none.mp hfind _ hmem
    simp at hnone
  | some n =>
    have haddress : n.address = s.position := by simpa using List.find?_some hfind
    rw [h.eq_of_address (List.mem_of_find?_eq_some hfind) hmem haddress]

theorem Coherent.perm_toEnd (h : l.Coherent) (hs : l.entries.lookup k = some s) :
    (without s.position l.order ++ [(⟨s.position, k⟩ : Node κ)]).Perm l.order := by
  have hnodup : l.order.Nodup := .of_map _ h.addresses
  have hlast : (⟨s.position, k⟩ : Node κ) ∉ without s.position l.order :=
    fun hmem => ((h.mem_without_iff hs).mp hmem).2 rfl
  have hmoved : (without s.position l.order ++ [(⟨s.position, k⟩ : Node κ)]).Nodup := by
    refine List.nodup_append.mpr ⟨hnodup.sublist List.filter_sublist, by simp, ?_⟩
    rintro n hn m hm rfl
    exact hlast (List.mem_singleton.mp hm ▸ hn)
  rw [List.perm_ext_iff_of_nodup hmoved hnodup]
  intro n
  rw [List.mem_append, h.mem_without_iff hs, List.mem_singleton]
  constructor
  · rintro (hn | rfl)
    · exact hn.1
    · exact h.listed k s hs
  · intro hn
    by_cases hk : n.key = k
    · exact .inr (h.eq_of_key hn (h.listed k s hs) hk)
    · exact .inl ⟨hn, hk⟩

theorem Coherent.visit (h : l.Coherent) (hs : l.entries.lookup k = some s) (value : α) :
    l.visit k s value = some ⟨l.entries.insert k { s with value := value },
        without s.position l.order ++ [⟨s.position, k⟩], l.nextAddress⟩ ∧
      (⟨l.entries.insert k { s with value := value },
        without s.position l.order ++ [⟨s.position, k⟩], l.nextAddress⟩ : Lru κ α).Coherent := by
  have hperm := h.perm_toEnd hs
  refine ⟨by rw [Lru.visit, h.spliceToEnd hs]; rfl, ?_, ?_, ?_, ?_, ?_⟩
  · exact (hperm.map _).nodup_iff.mpr h.addresses
  · exact fun n hn => h.allocated n (hperm.mem_iff.mp hn)
  · exact (hperm.map _).nodup_iff.mpr h.keys
  · intro k' s' hs'
    refine hperm.mem_iff.mpr ?_
    by_cases hk : k' = k
    · subst hk
      rw [AList.lookup_insert] at hs'
      cases hs'
      exact h.listed k' s hs
    · rw [AList.lookup_insert_ne hk] at hs'
      exact h.listed k' s' hs'
  · intro n hn
    by_cases hk : n.key = k
    · rw [hk]
      exact ⟨_, AList.lookup_insert _⟩
    · rw [AList.lookup_insert_ne hk]
      exact h.stored n (hperm.mem_iff.mp hn)

/-! ### Insertions -/

/-- A new key, with the address of the node that was made for it. -/
theorem Coherent.insert (h : l.Coherent) (hk : l.entries.lookup k = none) (value : α) :
    (l.pushBack k).backPosition = some l.nextAddress ∧
      ((l.pushBack k).store k ⟨value, l.nextAddress⟩).Coherent := by
  have hkey : ∀ n ∈ l.order, n.key ≠ k := by
    rintro n hn rfl
    obtain ⟨s, hs⟩ := h.stored n hn
    rw [hs] at hk
    cases hk
  have haddress : ∀ n ∈ l.order, n.address ≠ l.nextAddress := fun n hn =>
    Nat.ne_of_lt (h.allocated n hn)
  refine ⟨by simp [backPosition, pushBack], ?_, ?_, ?_, ?_, ?_⟩
  · simp only [store, pushBack, List.map_append, List.map_cons, List.map_nil]
    exact List.nodup_append.mpr ⟨h.addresses, by simp, by simpa using haddress⟩
  · intro n hn
    simp only [store, pushBack, List.mem_append, List.mem_singleton] at hn ⊢
    rcases hn with hn | rfl
    · exact Nat.lt_succ_of_lt (h.allocated n hn)
    · exact Nat.lt_succ_self _
  · simp only [store, pushBack, List.map_append, List.map_cons, List.map_nil]
    exact List.nodup_append.mpr ⟨h.keys, by simp, by simpa using hkey⟩
  · intro k' s' hs'
    simp only [store, pushBack, List.mem_append, List.mem_singleton] at hs' ⊢
    by_cases hk' : k' = k
    · subst hk'
      rw [AList.lookup_insert] at hs'
      cases hs'
      exact .inr rfl
    · rw [AList.lookup_insert_ne hk'] at hs'
      exact .inl (h.listed k' s' hs')
  · intro n hn
    simp only [store, pushBack, List.mem_append, List.mem_singleton] at hn ⊢
    rcases hn with hn | rfl
    · rw [AList.lookup_insert_ne (hkey n hn)]
      exact h.stored n hn
    · exact ⟨_, AList.lookup_insert _⟩

omit [DecidableEq κ] in
theorem popBack_pushBack (l : Lru κ α) (k : κ) :
    (l.pushBack k).popBack = { l with nextAddress := l.nextAddress + 1 } := by
  simp [popBack, pushBack]

theorem Coherent.allocate (h : l.Coherent) :
    ({ l with nextAddress := l.nextAddress + 1 } : Lru κ α).Coherent :=
  ⟨h.addresses, fun n hn => Nat.lt_succ_of_lt (h.allocated n hn), h.keys, h.listed, h.stored⟩

/-! ### Evictions -/

theorem Coherent.evictOldest (h : l.Coherent) : l.evictOldest.Coherent := by
  unfold Lru.evictOldest
  split
  · exact h
  · rename_i n rest horder
    have hkeys := h.keys
    rw [horder, List.map_cons, List.nodup_cons] at hkeys
    refine h.shrink (by rw [horder]; exact List.sublist_cons_self _ _) ?_ ?_
    · intro k s hs
      by_cases hk : k = n.key
      · subst hk
        simp at hs
      · rw [AList.lookup_erase_ne hk] at hs
        refine ⟨hs, ?_⟩
        have hmem := h.listed k s hs
        rw [horder, List.mem_cons] at hmem
        refine hmem.resolve_left fun heq => hk ?_
        rw [← heq]
    · intro m hm s hs
      have hne : m.key ≠ n.key := fun heq => hkeys.1 (heq ▸ List.mem_map_of_mem hm)
      rwa [AList.lookup_erase_ne hne]

/-! ### Erasing many -/

theorem Coherent.eraseNode (h : l.Coherent) (hs : l.entries.lookup k = some s) :
    Lru.eraseNode s.position l.order = some (without s.position l.order) :=
  if_pos (List.mem_map.mpr ⟨_, h.listed k s hs, rfl⟩)

theorem Coherent.erase (h : l.Coherent) (hs : l.entries.lookup k = some s) :
    (⟨l.entries.erase k, without s.position l.order, l.nextAddress⟩ : Lru κ α).Coherent := by
  refine h.shrink List.filter_sublist ?_ ?_
  · intro k' s' hs'
    by_cases hk : k' = k
    · subst hk
      simp at hs'
    · rw [AList.lookup_erase_ne hk] at hs'
      exact ⟨hs', (h.mem_without_iff hs).mpr ⟨h.listed k' s' hs', hk⟩⟩
  · intro n hn s' hs'
    rwa [AList.lookup_erase_ne ((h.mem_without_iff hs).mp hn).2]

/-- The loop is defined, and removes the entries that it meets and that satisfy `p`. -/
theorem Coherent.eraseLoop (p : α → Bool) {met : List (Σ _ : κ, Slot α)} (h : l.Coherent)
    (hnodup : met.NodupKeys) (hmet : ∀ e ∈ met, l.entries.lookup e.1 = some e.2) :
    ∃ l', Lru.eraseLoop p l met = some l' ∧ l'.Coherent ∧ l'.order.Sublist l.order ∧
      ∀ k, l'.entries.lookup k =
        if (met.dlookup k).any (fun s => p s.value) then none else l.entries.lookup k := by
  induction met generalizing l with
  | nil => exact ⟨l, rfl, h, .refl _, fun k => by simp⟩
  | cons e met ih =>
    obtain ⟨k, s⟩ := e
    obtain ⟨hnew, hnodup⟩ := List.nodupKeys_cons.mp hnodup
    have hs : l.entries.lookup k = some s := hmet ⟨k, s⟩ (by simp)
    have hnone : met.dlookup k = none := List.dlookup_eq_none.mpr hnew
    have hne : ∀ e ∈ met, e.1 ≠ k := by
      intro e he hkey
      exact hnew (List.mem_map.mpr ⟨e, he, hkey⟩)
    cases hp : p s.value with
    | false =>
      obtain ⟨l', hl', hcoherent, hsub, hlookup⟩ := ih h hnodup fun e he => hmet e (by simp [he])
      refine ⟨l', by rw [Lru.eraseLoop, hp, if_neg (by simp), hl'], hcoherent, hsub, fun k' => ?_⟩
      rw [hlookup]
      by_cases hk : k' = k
      · subst hk
        simp [hnone, hp]
      · rw [List.dlookup_cons_ne _ _ hk]
    | true =>
      have hrest : ∀ e ∈ met, (l.entries.erase k).lookup e.1 = some e.2 := by
        intro e he
        rw [AList.lookup_erase_ne (hne e he)]
        exact hmet e (by simp [he])
      obtain ⟨l', hl', hcoherent, hsub, hlookup⟩ := ih (h.erase hs) hnodup hrest
      refine ⟨l', by rw [Lru.eraseLoop, hp, if_pos rfl, h.eraseNode hs]; exact hl', hcoherent,
        hsub.trans List.filter_sublist, fun k' => ?_⟩
      rw [hlookup]
      by_cases hk : k' = k
      · subst hk
        simp [hnone, hp]
      · rw [List.dlookup_cons_ne _ _ hk, AList.lookup_erase_ne hk]

theorem Coherent.eraseWhere (h : l.Coherent) (p : α → Bool) :
    ∃ l', l.eraseWhere p = some l' ∧ l'.Coherent ∧ l'.order.Sublist l.order ∧
      ∀ k, l'.entries.lookup k = (l.entries.lookup k).filter fun s => !p s.value := by
  obtain ⟨l', hl', hcoherent, hsub, hlookup⟩ := h.eraseLoop p l.entries.nodupKeys
    fun e he => Table.mem_entries_iff.mp he
  refine ⟨l', hl', hcoherent, hsub, fun k => ?_⟩
  rw [hlookup, show l.entries.entries.dlookup k = l.entries.lookup k from rfl]
  cases l.entries.lookup k with
  | none => rfl
  | some s => cases hp : p s.value <;> simp [hp, Option.filter]

end Coherent

end Lru
end WebServer
