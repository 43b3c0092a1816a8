/-
No two entries of a ring are placed by one key.

The key of an entry is the address of its host, an underscore and the number of the entry.
Nothing is escaped in it, so an address may itself look like a key. Still a key tells both parts:
behind its last underscore there are only digits, and no number has an underscore in it
(`Ring.key_inj`). So where addresses are distinct, each entry is the hash of bytes that no other
entry is the hash of, and two entries meet only where the hash function itself does not tell two
keys apart (`Ring.keys_apart`).
-/
import LoadBalancing.Proofs.Ring.Owner
import LoadBalancing.Proofs.Text.Bytes
import LoadBalancing.Proofs.Text.Numbers
import Mathlib.Data.List.Nodup

set_option autoImplicit false

namespace LoadBalancing.Ring

/-- **A key tells the address and the number** that it is made of, whatever the address is. -/
theorem key_inj {a b : String} {i j : Nat} : key a i = key b j ↔ a = b ∧ i = j := by
  constructor
  · intro h
    have underscore (a : String) : ∀ c ∈ (a ++ "_").toList.getLast?, c.isDigit = false := by
      intro c hc
      rw [String.toList_append, List.getLast?_append] at hc
      cases hc
      rfl
    obtain ⟨hstem, hnumber⟩ := Text.append_toString_inj (underscore a) (underscore b) h
    exact ⟨(String.append_left_inj "_").1 hstem, hnumber⟩
  · rintro ⟨rfl, rfl⟩
    rfl

/-! ## The keys of a ring -/

/-- What is hashed for an entry, given its host and its number among the entries of that host. -/
def keyBytes (place : Host × Nat) : List UInt8 :=
  Text.bytes (key place.1.address place.2)

theorem keyBytes_inj {p q : Host × Nat} :
    keyBytes p = keyBytes q ↔ p.1.address = q.1.address ∧ p.2 = q.2 :=
  Text.bytes_inj.trans key_inj

/-- The entry that is placed by a key. -/
def entryAt (f : List UInt8 → UInt64) (place : Host × Nat) : RingEntry :=
  { hash := f (keyBytes place), host := place.1 }

/-- The places of all entries that some hosts are dealt. -/
def places (counts : List (Host × Nat)) : List (Host × Nat) :=
  counts.flatMap fun count => (List.range count.2).map fun i => (count.1, i)

theorem flatMap_entriesOf (f : List UInt8 → UInt64) (counts : List (Host × Nat)) :
    (counts.flatMap fun (h, n) => entriesOf f h n) = (places counts).map (entryAt f) := by
  rw [places, List.map_flatMap]
  simp only [List.map_map]
  rfl

/-- Hosts are told by their addresses, and the entries of one host by their numbers. -/
theorem nodup_keyBytes {counts : List (Host × Nat)}
    (distinct : (counts.map (·.1.address)).Nodup) : ((places counts).map keyBytes).Nodup := by
  rw [places, List.map_flatMap, List.nodup_flatMap]
  constructor
  · intro count _
    rw [List.map_map]
    exact List.nodup_range.map fun i j h => (keyBytes_inj.1 h).2
  · -- a key of one host that is a key of another one would be of one address
    refine (List.pairwise_map.1 distinct).imp fun {count other} hne => ?_
    intro k hk hk'
    obtain ⟨_, hplace, rfl⟩ := List.mem_map.1 hk
    obtain ⟨i, -, rfl⟩ := List.mem_map.1 hplace
    obtain ⟨_, hplace', h⟩ := List.mem_map.1 hk'
    obtain ⟨j, -, rfl⟩ := List.mem_map.1 hplace'
    exact hne (keyBytes_inj.1 h).1.symm

variable {α : Type} [Quantity α]

/-- **Keys never clash.** A key is that of one address and one number. So where the addresses of the
hosts are distinct, the entries of a ring, in some order, are the hashes of distinct keys: for each
host those with the first numbers, as many as it is dealt. -/
theorem keys_apart :
    (∀ (a b : String) (i j : Nat), key a i = key b j ↔ a = b ∧ i = j) ∧
      ∀ (w : Shares α) (s : RingSettings), (w.shares.map (·.1.address)).Nodup →
        (ofShares w s).entries.toList.Perm ((places (dealt w s)).map (entryAt s.hash.ofBytes)) ∧
          ((places (dealt w s)).map keyBytes).Nodup := by
  refine ⟨fun a b i j => key_inj, fun w s distinct => ⟨?_, nodup_keyBytes ?_⟩⟩
  · rw [entries_ofShares, flatMap_entriesOf]
    exact List.mergeSort_perm _ _
  · have hhosts : (dealt w s).map (·.1) = w.shares.map (·.1) := map_deal ..
    have haddresses := congrArg (List.map Host.address) hhosts
    rw [List.map_map, List.map_map] at haddresses
    exact haddresses ▸ distinct

/-- Two hosts, and the address of one looks like a key of the other. -/
def alike : Shares Rat :=
  ⟨[(pointed 0 "a", 1 / 2), (pointed 1 "a_1", 1 / 2)], 1 / 2⟩

theorem keys_apart_alike :
    (alike.shares.map (·.1.address)).Nodup ∧
      ((places (dealt alike (sized 4))).map keyBytes).Nodup :=
  ⟨by decide, (keys_apart.2 alike (sized 4) (by decide)).2⟩

end LoadBalancing.Ring
