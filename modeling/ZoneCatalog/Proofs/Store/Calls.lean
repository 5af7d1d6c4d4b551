import ZoneCatalog.Proofs.Data.SortedMap
import ZoneCatalog.Proofs.Store.Requests

/-! What calls change in a store in memory. Each of them decides for itself whether it has changed
anything and tells the feeds if so. Main statement: they are told of the one key at which what is
stored has changed, or was written again, and of no key if there is none. -/
namespace ZoneCatalog

/-- Something that is done with a store. A request is done when it is answered; it may have been
sent at any time before. -/
inductive StoreCall where
  | set (key value : String)
  | delete (key : String)
  | addMember (key member : String)
  | removeMember (key member : String)
  | putField (key name value : String)
  | request {r : StoreRequest} (p : Pending r)
  | readFeed (number : Nat)
  | closeFeed (number : Nat)
  /-- The read counter is reset, or the connection becomes another one. -/
  | tune (reads latency : Nat) (offline : Bool)

namespace Content

variable {c : Content} {key member k : String}

/-- All that is stored at a key. A set whose last member was removed is still stored. -/
def stored (c : Content) (key : String) :
    Option String × Option TextSet × Option (SortedMap String String) :=
  (c.strings.get? key, c.sets.get? key, c.hashes.get? key)

theorem holds_iff : c.holds key ↔ c.stored key ≠ (none, none, none) := by
  simp only [holds, stored, SortedMap.contains, Bool.or_eq_true, Option.isSome_iff_ne_none, ne_eq,
    Prod.mk.injEq]
  tauto

theorem hasMember_iff : c.hasMember key member ↔ member ∈ c.members key := by
  simp [hasMember, members, SortedMap.contains, SortedMap.keys, Option.isSome_iff_exists,
    SortedMap.mem_entries_iff]

theorem stored_delete (holds : c.holds key) : (c.delete key).stored key ≠ c.stored key := by
  rw [holds_iff] at holds
  simpa [stored, delete, SortedMap.get?_erase, eq_comm] using holds

theorem stored_addMember (absent : ¬ c.hasMember key member) :
    (c.addMember key member).stored key ≠ c.stored key := by
  intro same
  have added : (c.addMember key member).hasMember key member := by
    simp [hasMember, addMember, SortedMap.contains, SortedMap.get?_insert]
  have sets : (c.addMember key member).sets.get? key = c.sets.get? key :=
    congrArg (fun found => found.2.1) same
  rw [hasMember, sets] at added
  exact absent added

theorem stored_removeMember (present : c.hasMember key member) :
    (c.removeMember key member).stored key ≠ c.stored key := by
  intro same
  have removed : ¬ (c.removeMember key member).hasMember key member := by
    rw [removeMember]
    split
    · simp [hasMember, SortedMap.contains, SortedMap.get?_insert, SortedMap.get?_erase]
    · rename_i none_there
      simp [hasMember, SortedMap.contains, none_there]
  have sets : (c.removeMember key member).sets.get? key = c.sets.get? key :=
    congrArg (fun found => found.2.1) same
  rw [hasMember, sets] at removed
  exact removed present

end Content

namespace MemoryStore

variable {s s' : MemoryStore} {c : StoreCall} {key : String}

/-- The store after a call. -/
def after (s : MemoryStore) : StoreCall → MemoryStore
  | .set key value => s.set key value
  | .delete key => s.delete key
  | .addMember key member => s.addMember key member
  | .removeMember key member => s.removeMember key member
  | .putField key name value => s.putField key name value
  | .request p => (s.answer p).2
  | .readFeed number => (s.readFeed number).2
  | .closeFeed number => s.closeFeed number
  | .tune reads latency offline => { s with reads, latency, offline }

def afterAll (s : MemoryStore) (calls : List StoreCall) : MemoryStore := calls.foldl after s

/-- A call writes a string or a field at a key, be it the same as before. -/
def Writes (s : MemoryStore) (key : String) : StoreCall → Prop
  | .set k _ => k = key
  | .putField k _ _ => k = key
  | @StoreCall.request (.setField k _ _) p => k = key ∧ (s.answer p).1 = .ok ()
  | _ => False

/-- A call changes something at a key: it writes there, or something else is stored there after it. -/
def Changes (s : MemoryStore) (c : StoreCall) (key : String) : Prop :=
  s.Writes key c ∨ (s.after c).content.stored key ≠ s.content.stored key

theorem after_move (s : MemoryStore) (c : StoreCall) : s.Move none (s.after c) := by
  cases c with
  | set key value => exact .set key value
  | delete key => exact .delete key
  | addMember key member => exact .addMember key member
  | removeMember key member => exact .removeMember key member
  | putField key name value => exact .putField key name value
  | request p =>
    rcases s.answer_cases p with ⟨cause, failed⟩ | served
    · rw [after, failed]
      exact .tuned _ _ _
    · rw [after, served]
      exact ScriptedStore.serve_move none s _
  | readFeed number => exact .read (by simp)
  | closeFeed number => exact .closed (by simp)
  | tune reads latency offline => exact .tuned _ _ _

/-- What becomes of the feeds when nothing is changed in a store. -/
inductive Untold (s : MemoryStore) : MemoryStore → Prop where
  | kept {s' : MemoryStore} (feeds : s'.feeds = s.feeds) (content : s'.content = s.content) :
      Untold s s'
  | opened (pattern : String) : Untold s (s.openFeed pattern).2
  | read (number : Nat) : Untold s (s.readFeed number).2
  | closed (number : Nat) : Untold s (s.closeFeed number)

theorem Untold.content_eq (u : Untold s s') : s'.content = s.content := by
  cases u with
  | kept _ content => exact content
  | opened pattern => rfl
  | read number => exact s.content_readFeed number
  | closed number => rfl

/-- Whatever a call does, the feeds are told of one key, the only one at which it changes anything,
or of none, and then it changes nothing. -/
inductive News (s : MemoryStore) (c : StoreCall) : Prop where
  | told {key : String} {content : Content} (same : s.after c = { s with content }.notify key)
      (only : ∀ k, s.Changes c k ↔ k = key)
  | untold (quiet : ∀ k, ¬ s.Changes c k) (u : Untold s (s.after c))

namespace News

/-- A call that tells the feeds of the key at which it changes something. -/
theorem of_notify {content : Content} (same : s.after c = { s with content }.notify key)
    (changes : s.Writes key c ∨ content.stored key ≠ s.content.stored key)
    (writes : ∀ k, s.Writes k c → k = key)
    (others : ∀ k ≠ key, content.stored k = s.content.stored k) : News s c := by
  have stored : (s.after c).content = content := by rw [same]; rfl
  refine .told same fun k => ⟨?only, ?there⟩
  case only =>
    rintro (written | changed)
    · exact writes k written
    · by_contra other
      exact changed (stored ▸ others k other)
  case there =>
    rintro rfl
    rwa [Changes, stored]

theorem of_untold (writes : ∀ k, ¬ s.Writes k c) (u : Untold s (s.after c)) : News s c := by
  refine .untold (fun k changes => ?_) u
  rcases changes with written | changed
  · exact writes k written
  · exact changed (by rw [u.content_eq])

theorem of_same (writes : ∀ k, ¬ s.Writes k c) (same : s.after c = s) : News s c :=
  .of_untold writes (.kept (by rw [same]) (by rw [same]))

end News

theorem delete_eq_self (absent : ¬ s.content.holds key) : s.delete key = s := if_neg absent

theorem addMember_eq_self {member : String} (present : s.content.hasMember key member) :
    s.addMember key member = s := by
  simp only [addMember, if_pos present, s.content.addMember_present present]

theorem removeMember_eq_self {member : String} (absent : ¬ s.content.hasMember key member) :
    s.removeMember key member = s := if_neg absent

theorem news_request (s : MemoryStore) {r : StoreRequest} (p : Pending r) :
    News s (.request p) := by
  rcases s.answer_cases p with ⟨cause, failed⟩ | served
  · refine .of_same (fun k written => ?_) (by rw [after, failed])
    cases r with
    | setField key name value => simp [Writes, failed] at written
    | _ => exact written
  · have same : s.after (.request p) = (s.serve r).2 := by rw [after, served]
    cases r with
    | setField key name value =>
      refine .of_notify same (.inl ⟨rfl, by rw [served]; rfl⟩) (fun k written => written.1.symm) ?_
      intro k hk
      simp [Content.stored, Content.setField, SortedMap.get?_insert, hk]
    | subscribe pattern => exact .of_untold (fun _ => id) (same ▸ .opened pattern)
    | _ => exact .of_untold (fun _ => id) (same ▸ .kept rfl rfl)

/-- What each call does. One that writes tells the feeds in any case, one that takes something away or
adds a member only if that is a change. -/
theorem news (s : MemoryStore) (c : StoreCall) : News s c := by
  cases c with
  | set key value =>
    refine .of_notify rfl (.inl rfl) (fun k written => written.symm) fun k hk => ?_
    simp [Content.stored, Content.setString, SortedMap.get?_insert, hk]
  | putField key name value =>
    refine .of_notify rfl (.inl rfl) (fun k written => written.symm) fun k hk => ?_
    simp [Content.stored, Content.setField, SortedMap.get?_insert, hk]
  -- These do not write: whether they are changes shows in what is stored.
  | delete key =>
    by_cases holds : s.content.holds key
    · refine .of_notify (if_pos holds) (.inr (Content.stored_delete holds)) (fun _ => False.elim) ?_
      intro k hk
      simp [Content.stored, Content.delete, SortedMap.get?_erase, hk]
    · exact .of_same (fun _ => id) (delete_eq_self holds)
  | addMember key member =>
    by_cases present : s.content.hasMember key member
    · exact .of_same (fun _ => id) (addMember_eq_self present)
    · refine .of_notify (if_neg present) (.inr (Content.stored_addMember present))
        (fun _ => False.elim) fun k hk => ?_
      simp [Content.stored, Content.addMember, SortedMap.get?_insert, hk]
  | removeMember key member =>
    by_cases present : s.content.hasMember key member
    · refine .of_notify (if_pos present) (.inr (Content.stored_removeMember present))
        (fun _ => False.elim) fun k hk => ?_
      rw [Content.removeMember]
      split
      · simp [Content.stored, SortedMap.get?_insert, hk]
      · rfl
    · exact .of_same (fun _ => id) (removeMember_eq_self present)
  | request p => exact news_request s p
  | readFeed number => exact .of_untold (fun _ => id) (.read number)
  | closeFeed number => exact .of_untold (fun _ => id) (.closed number)
  | tune reads latency offline => exact .of_untold (fun _ => id) (.kept rfl rfl)

end MemoryStore
end ZoneCatalog
