import ShadowCheck.Proofs.Store.Memory
import ShadowCheck.Store.Faults

/-!
Actions on a state, and stores whose state holds a memory. Such a store answers
from that memory and keeps it as it is, but for a write, which is done there or
refused, and for the temporary directories that it hands out.
-/

namespace ShadowCheck

variable {σ : Type}

/-- What an action gives on a state, and the state that it leaves. -/
def perform {σ α : Type} (state : σ) (action : StateM σ α) : α × σ :=
  (StateT.run action state).run

@[simp] theorem perform_pure {σ α : Type} (state : σ) (value : α) :
    perform state (pure value) = (value, state) := rfl

@[simp] theorem perform_bind {σ α β : Type} (state : σ) (action : StateM σ α)
    (next : α → StateM σ β) :
    perform state (action >>= next) =
      perform (perform state action).2 (next (perform state action).1) := rfl

@[simp] theorem perform_map {σ α β : Type} (state : σ) (change : α → β) (action : StateM σ α) :
    perform state (change <$> action) =
      (change (perform state action).1, (perform state action).2) := rfl

namespace Memory

structure Backs (memory : σ → Memory) (store : FileSystem (StateM σ)) : Prop where
  directory : ∀ state, perform state store.directory = ((memory state).directory, state)
  holds : ∀ state path, perform state (store.holds path) = ((memory state).holds path, state)
  read : ∀ state path, perform state (store.read path) = ((memory state).read? path, state)
  list : ∀ state root selection,
    perform state (store.list root selection) = ((memory state).list root selection, state)
  written : ∀ state path text, (perform state (store.write path text)).1 = .ok () →
    memory (perform state (store.write path text)).2 = (memory state).write path text
  refused : ∀ state path text error, (perform state (store.write path text)).1 = .error error →
    memory (perform state (store.write path text)).2 = memory state
  makeTemporary : ∀ state shadow, (perform state store.makeTemporary).1 = .ok shadow →
    shadow = (memory state).makeTemporary.1 ∧
      memory (perform state store.makeTemporary).2 = (memory state).makeTemporary.2

theorem backs_fileSystem : Backs id fileSystem where
  directory _ := rfl
  holds _ _ := rfl
  read _ _ := rfl
  list _ _ _ := rfl
  written _ _ _ _ := rfl
  refused _ _ _ _ failed := by cases failed
  makeTemporary _ _ made := ⟨(Except.ok.inj made).symm, rfl⟩

section

variable (faults : Faults) (base : FileSystem (StateM σ)) (state : σ)

theorem perform_write_guard (path : Path) (text : String) :
    (∃ error, perform state ((faults.guard base).write path text) = (.error error, state)) ∨
      perform state ((faults.guard base).write path text) =
        perform state (base.write path text) := by
  simp only [Faults.guard]
  split
  · exact .inl ⟨_, rfl⟩
  split
  · exact .inl ⟨_, rfl⟩
  · exact .inr rfl

theorem perform_makeTemporary_guard :
    (∃ error, perform state (faults.guard base).makeTemporary = (.error error, state)) ∨
      perform state (faults.guard base).makeTemporary = perform state base.makeTemporary := by
  simp only [Faults.guard]
  split
  · exact .inl ⟨_, rfl⟩
  · exact .inr rfl

end

/-- Faults that refuse no read leave a memory behind the store. -/
theorem Backs.guard {memory : σ → Memory} {base : FileSystem (StateM σ)}
    (backs : Backs memory base) {faults : Faults} (readable : faults.unreadable = []) :
    Backs memory (faults.guard base) where
  directory := backs.directory
  holds := backs.holds
  read state path := by
    obtain ⟨unreadable, readOnly, broken, noTemporary, noRemoval⟩ := faults
    cases readable
    exact backs.read state path
  list := backs.list
  written state path text done := by
    rcases perform_write_guard faults base state path text with ⟨error, failed⟩ | same
    · rw [failed] at done
      cases done
    · rw [same] at done ⊢
      exact backs.written state path text done
  refused state path text error failed := by
    rcases perform_write_guard faults base state path text with ⟨_, refused⟩ | same
    · rw [refused]
    · rw [same] at failed ⊢
      exact backs.refused state path text error failed
  makeTemporary state shadow made := by
    rcases perform_makeTemporary_guard faults base state with ⟨error, failed⟩ | same
    · rw [failed] at made
      cases made
    · rw [same] at made ⊢
      exact backs.makeTemporary state shadow made

end Memory

end ShadowCheck
