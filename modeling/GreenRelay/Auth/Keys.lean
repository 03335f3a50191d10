/-
The table of API keys and its cache.

A key is looked up by its identifier on every request, so the lookups are kept
in a cache that has no expiry: an entry goes when it is evicted or when a
revocation invalidates it.  The cache is a map; that its operations are atomic
is the assumption under which the tasks below share it.
-/
import GreenRelay.Lib.Table
import GreenRelay.Auth.Lockout

namespace GreenRelay
namespace Auth

structure ApiKeyRecord where
  id : ApiKeyId
  keyHash : String
  keyIdentifier : String
  customRateLimit : Option Int
  revoked : Bool
  createdAt : String
  deriving DecidableEq, Repr

/-- The rows under the two UNIQUE constraints of the schema. -/
structure ApiKeys where
  table : Table ApiKeyRecord ApiKeyRecord.id
  uniqueHash : (table.rows.map (·.keyHash)).Nodup
  uniqueIdentifier : (table.rows.map (·.keyIdentifier)).Nodup

namespace ApiKeys

def empty : ApiKeys := ⟨.empty, List.nodup_nil, List.nodup_nil⟩

def find (k : ApiKeys) (id : ApiKeyId) : Option ApiKeyRecord := k.table.find id

theorem mem_insert {t : Table ApiKeyRecord ApiKeyRecord.id} {mk : Nat → ApiKeyRecord}
    {hmk : ∀ n, (mk n).id = n} {α : Type} (f : ApiKeyRecord → α)
    (h : (t.rows.map f).Nodup) (hnew : f (mk (t.seq + 1)) ∉ t.rows.map f) :
    ((t.insert mk hmk).rows.map f).Nodup := by
  rw [Table.insert, List.map_append, List.nodup_append]
  refine ⟨h, List.nodup_singleton _, ?_⟩
  rintro a ha b hb rfl
  rw [List.mem_singleton.mp hb] at ha
  exact hnew ha

/-- The `INSERT` fails where the hash or the identifier is taken. -/
def insertApiKey (k : ApiKeys) (keyHash identifier createdAt : String) : Option ApiKeys :=
  if h : keyHash ∉ k.table.rows.map (·.keyHash) ∧
      identifier ∉ k.table.rows.map (·.keyIdentifier) then
    some {
      table := k.table.insert (fun id => ⟨id, keyHash, identifier, none, false, createdAt⟩)
        (fun _ => rfl)
      uniqueHash := mem_insert _ k.uniqueHash h.1
      uniqueIdentifier := mem_insert _ k.uniqueIdentifier h.2 }
  else none

def revoke (r : ApiKeyRecord) : ApiKeyRecord := { r with revoked := true }

theorem revoke_id (r : ApiKeyRecord) : (revoke r).id = r.id := rfl

theorem map_modify_revoke {t : Table ApiKeyRecord ApiKeyRecord.id} {id : ApiKeyId} {α : Type}
    {f : ApiKeyRecord → α} (hf : ∀ r, f (revoke r) = f r) :
    (t.modify id revoke revoke_id).rows.map f = t.rows.map f := by
  rw [Table.modify, List.map_map]
  apply List.map_congr_left
  intro r _
  show f (if r.id = id then revoke r else r) = f r
  split
  · exact hf r
  · rfl

/-- The `UPDATE`, with the number of rows affected: a key that is revoked already
is affected again. -/
def setApiKeyRevoked (k : ApiKeys) (id : ApiKeyId) : ApiKeys × Nat :=
  ({ table := k.table.modify id revoke revoke_id
     uniqueHash := by
       rw [map_modify_revoke (fun _ => rfl)]
       exact k.uniqueHash
     uniqueIdentifier := by
       rw [map_modify_revoke (fun _ => rfl)]
       exact k.uniqueIdentifier },
    if (k.find id).isSome then 1 else 0)

def apiKeyIdentifier (k : ApiKeys) (id : ApiKeyId) : Option String :=
  (k.find id).map (·.keyIdentifier)

end ApiKeys

/-- A stored limit that is no `u32` counts as absent. -/
def rateLimitOfColumn (c : Int) : Option Nat :=
  if 0 ≤ c ∧ c < 4294967296 then some c.toNat else none

/-- The row id and the custom rate limit of an active key, or that there is
none. -/
abbrev CachedKey := Option (ApiKeyId × Option Nat)

def ApiKeys.lookupActiveKey (k : ApiKeys) (identifier : String) : CachedKey :=
  (k.table.rows.find? (fun r => r.keyIdentifier = identifier ∧ r.revoked = false)).map
    (fun r => (r.id, r.customRateLimit.bind rateLimitOfColumn))

/-! ## Lookups of a key -/

namespace ApiKeys

variable {k k' : ApiKeys} {id : ApiKeyId} {r : ApiKeyRecord}

theorem find_insertApiKey {keyHash identifier createdAt : String}
    (h : k.insertApiKey keyHash identifier createdAt = some k') (hr : k.find id = some r) :
    k'.find id = some r := by
  unfold insertApiKey at h
  split at h
  · cases h
    exact Table.find_insert_of_find hr
  · cases h

theorem find_setApiKeyRevoked (k : ApiKeys) (id j : ApiKeyId) :
    (k.setApiKeyRevoked id).1.find j =
      (k.find j).map (fun r => if j = id then revoke r else r) :=
  Table.find_modify k.table id revoke revoke_id j

/-- A revoked key is not found, since no other key has its identifier. -/
theorem lookupActiveKey_revoked (hr : k.find id = some r) (hrevoked : r.revoked = true) :
    k.lookupActiveKey r.keyIdentifier = none := by
  rw [lookupActiveKey, Option.map_eq_none_iff, List.find?_eq_none]
  intro r' hr'
  rw [decide_eq_true_eq]
  rintro ⟨hid, hactive⟩
  have heq : r' = r :=
    List.inj_on_of_nodup_map k.uniqueIdentifier hr' (Table.mem_of_find hr) hid
  rw [heq, hrevoked] at hactive
  cases hactive

end ApiKeys

end Auth
end GreenRelay
