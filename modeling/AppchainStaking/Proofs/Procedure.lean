import AppchainStaking.Error

/-!
# Procedures that write in place

A procedure reads and writes a state and may fail. Nothing undoes a write: what a procedure wrote
before it failed stays written. So a procedure is all or nothing only if it fails before its first
write, or on a copy that it gives up.
-/

namespace AppchainStaking

abbrev Procedure (ε σ : Type) := ExceptT ε (StateM σ)

namespace Procedure

variable {ε σ κ α β : Type}

/-- Runs a procedure. The state that it ends in is given also when it fails. -/
def exec (p : Procedure ε σ α) (s : σ) : Except ε α × σ :=
  Id.run (StateT.run (ExceptT.run p) s)

def check (x : Except ε α) : Procedure ε σ α := ExceptT.mk (pure x)

def demand (p : Prop) [Decidable p] (e : ε) : Procedure ε σ Unit := check (require p e)

/-- Runs a procedure on a part of the state, in place. -/
def on (part : σ → κ) (put : σ → κ → σ) (p : Procedure ε κ α) : Procedure ε σ α :=
  ExceptT.mk fun s => ((p.exec (part s)).1, put s (p.exec (part s)).2)

/-- Runs a procedure on a copy of a part of the state. Only if it succeeds is the copy put in the
place of that part. -/
def onCopy (part : σ → κ) (put : σ → κ → σ) (p : Procedure ε κ α) : Procedure ε σ α := do
  let (outcome, copy) := p.exec (part (← get))
  let a ← check outcome
  modify (put · copy)
  return a

def proceed (s : σ) (x : Except ε α) (k : α → Except ε β × σ) : Except ε β × σ :=
  match x with
  | .ok a => k a
  | .error e => (.error e, s)

/-- Writes a state that was computed beforehand; if there is none the state stays as it is. -/
def commit (s : σ) (x : Except ε (σ × α)) : Except ε α × σ :=
  proceed s x fun (s', a) => (.ok a, s')

def update (s : σ) (x : Except ε σ) : Except ε Unit × σ :=
  proceed s x fun s' => (.ok (), s')

@[simp] theorem proceed_ok (s : σ) (a : α) (k : α → Except ε β × σ) :
    proceed s (.ok a) k = k a := rfl

@[simp] theorem proceed_error (s : σ) (e : ε) (k : α → Except ε β × σ) :
    proceed s (.error e) k = (.error e, s) := rfl

@[simp] theorem exec_modify (f : σ → σ) (s : σ) :
    exec (modify f : Procedure ε σ Unit) s = (.ok (), f s) := rfl

@[simp] theorem exec_check_bind (x : Except ε α) (k : α → Procedure ε σ β) (s : σ) :
    exec (check x >>= k) s = proceed s x fun a => exec (k a) s := by
  cases x <;> rfl

@[simp] theorem exec_demand_bind (p : Prop) [Decidable p] (e : ε) (k : Unit → Procedure ε σ β)
    (s : σ) : exec (demand p e >>= k) s = proceed s (require p e) fun a => exec (k a) s :=
  exec_check_bind ..

@[simp] theorem exec_get_bind (k : σ → Procedure ε σ β) (s : σ) :
    exec (get >>= k) s = exec (k s) s := rfl

@[simp] theorem exec_modify_bind (f : σ → σ) (k : Unit → Procedure ε σ β) (s : σ) :
    exec (modify f >>= k) s = exec (k ()) (f s) := rfl

@[simp] theorem exec_map_modify (g : Unit → α) (f : σ → σ) (s : σ) :
    exec (g <$> modify f : Procedure ε σ α) s = (.ok (g ()), f s) := rfl

theorem exec_bind (p : Procedure ε σ α) (k : α → Procedure ε σ β) (s : σ) :
    exec (p >>= k) s =
      match exec p s with
      | (.ok a, s') => exec (k a) s'
      | (.error e, s') => (.error e, s') := by
  unfold exec ExceptT.run StateT.run Id.run
  simp only [bind, ExceptT.bind, ExceptT.mk, StateT.bind, ExceptT.bindCont]
  rcases p s with ⟨_ | _, s'⟩ <;> rfl

theorem exec_on (part : σ → κ) (put : σ → κ → σ) (p : Procedure ε κ α) (s : σ) :
    exec (on part put p) s = ((p.exec (part s)).1, put s (p.exec (part s)).2) := rfl

section Part

variable {part : σ → κ} {put : σ → κ → σ} {s : σ} {p : Procedure ε κ α}

theorem exec_on_bind {x : Except ε (κ × α)} (hp : exec p (part s) = commit (part s) x)
    (hput : put s (part s) = s) (k : α → Procedure ε σ β) :
    exec (on part put p >>= k) s = proceed s x fun (part', a) => exec (k a) (put s part') := by
  rw [exec_bind, exec_on, hp]
  cases x with
  | error e => simp [commit, hput]
  | ok x => rfl

theorem exec_on_bind_of_update {p : Procedure ε κ Unit} {x : Except ε κ}
    (hp : exec p (part s) = update (part s) x) (hput : put s (part s) = s)
    (k : Unit → Procedure ε σ β) :
    exec (on part put p >>= k) s = proceed s x fun part' => exec (k ()) (put s part') := by
  rw [exec_bind, exec_on, hp]
  cases x with
  | error e => simp [update, hput]
  | ok x => rfl

end Part

@[simp] theorem commit_bind (s : σ) (x : Except ε α) (f : α → Except ε (σ × β)) :
    commit s (x >>= f) = proceed s x fun a => commit s (f a) := by
  cases x <;> rfl

@[simp] theorem commit_map (s : σ) (x : Except ε α) (g : α → σ × β) :
    commit s (g <$> x) = proceed s x fun a => (.ok (g a).2, (g a).1) := by
  cases x <;> rfl

@[simp] theorem update_bind (s : σ) (x : Except ε α) (f : α → Except ε σ) :
    update s (x >>= f) = proceed s x fun a => update s (f a) := by
  cases x <;> rfl

@[simp] theorem update_map (s : σ) (x : Except ε α) (g : α → σ) :
    update s (g <$> x) = proceed s x fun a => (.ok (), g a) := by
  cases x <;> rfl

theorem exec_map_of_commit {p : Procedure ε σ α} {s : σ} {x : Except ε (σ × α)}
    (hp : exec p s = commit s x) (g : α → β) :
    exec (g <$> p) s = commit s ((fun y => (y.1, g y.2)) <$> x) := by
  rw [map_eq_pure_bind, exec_bind, hp]
  cases x <;> rfl

theorem exec_map_of_update {p : Procedure ε σ Unit} {s : σ} {x : Except ε σ}
    (hp : exec p s = update s x) (g : Unit → β) :
    exec (g <$> p) s = commit s ((fun s' => (s', g ())) <$> x) := by
  rw [map_eq_pure_bind, exec_bind, hp]
  cases x <;> rfl

theorem exec_forM_modify (f : κ → β → κ) (changes : List β) (k : κ) :
    exec (forM changes fun c => modify (f · c) : Procedure ε κ Unit) k =
      (.ok (), changes.foldl f k) := by
  induction changes generalizing k with
  | nil => rfl
  | cons c changes ih => rw [List.forM_cons, exec_modify_bind, ih, List.foldl_cons]

variable {apply : κ → β → Except ε κ} {p : β → Procedure ε κ Unit}

/-- A batch of changes, each of which is all or nothing, succeeds in place as it does in one
computation. When it fails in place, the changes before the one that failed stay. -/
theorem exec_forM (hp : ∀ c k, exec (p c) k = update k (apply k c)) (changes : List β) (k : κ) :
    (∀ e, changes.foldlM apply k = .error e → (exec (forM changes p) k).1 = .error e) ∧
      ∀ k', changes.foldlM apply k = .ok k' → exec (forM changes p) k = (.ok (), k') := by
  induction changes generalizing k with
  | nil =>
      refine ⟨fun e h => ?_, fun k' h => ?_⟩
      · cases h
      · cases h
        rfl
  | cons c changes ih =>
      rw [List.foldlM_cons, List.forM_cons, exec_bind, hp]
      cases h : apply k c with
      | error e =>
          refine ⟨fun e' h => ?_, fun k' h => ?_⟩
          · cases h
            rfl
          · cases h
      | ok k' => exact ih k'

/-- A batch on a copy is all or nothing, because the copy of a batch that fails is given up. -/
theorem exec_onCopy_forM_bind (hp : ∀ c k, exec (p c) k = update k (apply k c)) (part : σ → κ)
    (put : σ → κ → σ) (changes : List β) (k : Unit → Procedure ε σ α) (s : σ) :
    exec (onCopy part put (forM changes p) >>= k) s =
      proceed s (changes.foldlM apply (part s)) fun part' => exec (k ()) (put s part') := by
  obtain ⟨herror, hok⟩ := exec_forM hp changes (part s)
  simp only [onCopy, bind_assoc, exec_get_bind, exec_check_bind]
  cases h : changes.foldlM apply (part s) with
  | error e => rw [herror e h, proceed_error, proceed_error]
  | ok part' => rw [hok part' h]; rfl

end Procedure

end AppchainStaking
