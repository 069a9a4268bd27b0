import SyncedConfig.Proofs.Accepted.Unique
import SyncedConfig.Proofs.Collection.People
import SyncedConfig.Proofs.IdentifierCheck
import SyncedConfig.Proofs.Text.Order

/-!
# The members of a legacy group

A legacy group begins without members, or with those of an object, in which a name may come more
than once. Members are then put and erased, one change after the other. What is known of a member
is what the latest change says that touches them, or what the object said last where no change does.
The members always come in the order of their identifiers, and this is also the order in which they
are dumped and counted.
-/
namespace SyncedConfig

open Json (IsList IsLooseValue IsObject boolOctets)
open Json.Reader (IsPadded)

section Latest

variable {α : Type} {p : α → Prop} {a b : α} {as : List α}

end Latest

namespace LegacyGroup

inductive Change
  | insert (id : String) (admin : Bool)
  | erase (id : String)

/-- A change touches a member whom it erases, or puts under the identifier of an account. -/
def Change.Touches (id : String) : Change → Prop
  | .insert other _ => other = id ∧ IdKind.account.IsIdentifier other
  | .erase other => other = id

def change (g : LegacyGroup) : Change → LegacyGroup
  | .insert id admin => (g.putMember id admin).2
  | .erase id => (g.eraseMember id).2

def changed (g : LegacyGroup) (changes : List Change) : LegacyGroup := changes.foldl change g

variable {g : LegacyGroup} {id : String} {admin : Bool}

/-- The octets are an object of flags with these names in order. -/
def WritesPeople (entries : List (String × Bool)) (octets : Bytes) : Prop :=
  IsObject (entries.map fun e => (e.1, boolOctets e.2)) octets

/-- The octets are a group that is written with an object of flags for its members: an object with
no other member of this name, or a list of all fields. -/
def Writes (entries : List (String × Bool)) (octets : Bytes) : Prop :=
  ∃ people, WritesPeople entries people ∧ IsRecordWith "members" 5 people octets

theorem boolOctets_isLooseValue (entries : List (String × Bool)) :
    ∀ m ∈ entries.map fun e => (e.1, boolOctets e.2), IsLooseValue m.2 := by
  intro m hm
  obtain ⟨e, -, rfl⟩ := List.mem_map.1 hm
  exact .bool e.2

theorem Writes.unique {entries others : List (String × Bool)} {octets : Bytes}
    (h : Writes entries octets) (h' : Writes others octets) : entries = others := by
  obtain ⟨people, hpeople, hrecord⟩ := h
  obtain ⟨people', hpeople', hrecord'⟩ := h'
  obtain rfl := hrecord.unique hrecord'
  have hmembers := IsObject.unique hpeople (boolOctets_isLooseValue entries) hpeople'
    (boolOctets_isLooseValue others)
  refine List.map_injective_iff.2 (fun e e' he => ?_) hmembers
  have hflag : ∀ b b' : Bool, boolOctets b = boolOctets b' → b = b' := by decide
  exact Prod.ext (Prod.mk.inj he).1 (hflag _ _ (Prod.mk.inj he).2)

theorem Writes.isLooseValue {entries : List (String × Bool)} {octets : Bytes}
    (h : Writes entries octets) : IsLooseValue octets := by
  obtain ⟨people, -, hrecord⟩ := h
  exact hrecord.isLooseValue.1

end LegacyGroup
end SyncedConfig
