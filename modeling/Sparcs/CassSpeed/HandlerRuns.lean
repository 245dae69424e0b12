import Sparcs.CassSpeed.SocketHandler

/-! A handler that runs alone, statement by statement. One that compresses something stores
`numsamples` before it reads it, so what earlier handlers left there does not matter.
-/

namespace Sparcs.CassSpeed

open SharedCell

variable {α β : Type}

/-- The outcome of a function of the handler, and the value of `numsamples` after it. -/
def Handling.eval (h : Handling α) (numsamples : Int32) : Except Fault α × Int32 :=
  (ExceptT.run h).run numsamples

namespace Handling

@[simp] theorem eval_pure (a : α) (v : Int32) : (pure a : Handling α).eval v = (.ok a, v) := rfl

@[simp] theorem eval_throw (fault : Fault) (v : Int32)
    : (throw fault : Handling α).eval v = (.error fault, v) := rfl

@[simp] theorem eval_ofExcept (e : Except Fault α) (v : Int32)
    : (ofExcept e : Handling α).eval v = (e, v) := by
  cases e <;> rfl

@[simp] theorem eval_readNumsamples (v : Int32) : readNumsamples.eval v = (.ok v, v) := rfl

@[simp] theorem eval_writeNumsamples (v w : Int32)
    : (writeNumsamples w).eval v = (.ok (), w) := rfl

theorem eval_bind (h : Handling α) (next : α → Handling β) (v : Int32)
    : (h >>= next).eval v
      = match (h.eval v).1 with
        | .ok a => (next a).eval (h.eval v).2
        | .error fault => (.error fault, (h.eval v).2) := by
  rw [eval, ExceptT.run_bind, Program.run_bind]
  rw [eval]
  cases ((ExceptT.run h).run v).1 with
  | ok a => rfl
  | error fault => rfl

/-- The outcome does not depend on `numsamples`; after a success, neither does what is stored
there, if anything is.
-/
def Blind (h : Handling α) : Prop :=
  ∀ v w, (h.eval v).1 = (h.eval w).1 ∧ ∀ a, (h.eval v).1 = .ok a →
    (h.eval v).2 = (h.eval w).2 ∨ (h.eval v).2 = v ∧ (h.eval w).2 = w

/-- Besides, a success stores something. -/
def Forgets (h : Handling α) : Prop :=
  ∀ v w, (h.eval v).1 = (h.eval w).1 ∧ ∀ a, (h.eval v).1 = .ok a → (h.eval v).2 = (h.eval w).2

variable {h : Handling α} {next : α → Handling β}

theorem Forgets.blind (forgets : h.Forgets) : h.Blind := by
  intro v w
  obtain ⟨same, left⟩ := forgets v w
  exact ⟨same, fun a result => .inl (left a result)⟩

theorem blind_pure (a : α) : (pure a : Handling α).Blind :=
  fun _ _ => ⟨rfl, fun _ _ => .inr ⟨rfl, rfl⟩⟩

theorem blind_throw (fault : Fault) : (throw fault : Handling α).Blind :=
  fun _ _ => ⟨rfl, fun _ failed => by cases failed⟩

theorem blind_ofExcept (e : Except Fault α) : (ofExcept e : Handling α).Blind := by
  intro v w
  simp

theorem blind_ofExcept_bind {e : Except Fault α} (blinds : ∀ a, e = .ok a → (next a).Blind)
    : (ofExcept e >>= next).Blind := by
  cases e with
  | error fault => exact blind_throw fault
  | ok a => exact blinds a rfl

theorem forgets_writeNumsamples (v : Int32) : (writeNumsamples v).Forgets :=
  fun _ _ => ⟨rfl, fun _ _ => rfl⟩

/-- What follows on a function that forgets is the same from then on. -/
theorem Forgets.bind (forgets : h.Forgets) (next : α → Handling β) : (h >>= next).Forgets := by
  intro v w
  obtain ⟨same, left⟩ := forgets v w
  rw [eval_bind, eval_bind, ← same]
  cases result : (h.eval v).1 with
  | error fault => exact ⟨rfl, fun b failed => by cases failed⟩
  | ok a => rw [left a result]; exact ⟨rfl, fun _ _ => rfl⟩

theorem Blind.bind (blind : h.Blind) (blinds : ∀ a, (next a).Blind) : (h >>= next).Blind := by
  intro v w
  obtain ⟨same, left⟩ := blind v w
  rw [eval_bind, eval_bind, ← same]
  cases result : (h.eval v).1 with
  | error fault => exact ⟨rfl, fun b failed => by cases failed⟩
  | ok a =>
      rcases left a result with equal | ⟨unchanged, unchanged'⟩
      · rw [equal]
        exact ⟨rfl, fun _ _ => .inl rfl⟩
      · rw [unchanged, unchanged']
        exact blinds a v w

/-- A blind function may come first. -/
theorem Blind.bind_forgets (blind : h.Blind) (forget : ∀ a, (next a).Forgets)
    : (h >>= next).Forgets := by
  intro v w
  obtain ⟨same, left⟩ := blind v w
  rw [eval_bind, eval_bind, ← same]
  cases result : (h.eval v).1 with
  | error fault => exact ⟨rfl, fun b failed => by cases failed⟩
  | ok a =>
      rcases left a result with equal | ⟨unchanged, unchanged'⟩
      · rw [equal]
        exact ⟨rfl, fun _ _ => rfl⟩
      · rw [unchanged, unchanged']
        exact forget a v w

/-- A loop of blind turns, by induction over its list. -/
theorem blind_foldlM {γ : Type} {turn : β → γ → Handling β} (blind : ∀ b c, (turn b c).Blind)
    (cs : List γ) (b : β)
    : (cs.foldlM turn b).Blind := by
  induction cs generalizing b with
  | nil => exact blind_pure b
  | cons c cs ih => exact (blind b c).bind ih

end Handling

open Handling

theorem compress_forgets (compression : Compression) (input : Samples) (stepsize : Int32)
    : (compress compression input stepsize).Forgets := by
  refine (blind_ofExcept _).bind_forgets fun output => ?_
  exact (forgets_writeNumsamples _).bind _

theorem addSampleset_forgets (samples : List UpmuSample) (stepsize : Int32)
    (set : Compression × Channel)
    : (addSampleset samples stepsize set).Forgets :=
  (compress_forgets _ _ _).bind _

theorem addSamplesets_forgets {r : Request} (compresses : r.sets ≠ [])
    (samples : List UpmuSample)
    : (r.sets.mapM (addSampleset samples r.stepsize)).Forgets := by
  cases sets : r.sets with
  | nil => exact absurd sets compresses
  | cons set sets =>
      rw [List.mapM_cons]
      exact (addSampleset_forgets _ _ _).bind _

/-- A device whose rows are found leaves nothing of what stood in `numsamples`. -/
theorem handleRows_forgets {r : Request} (compresses : r.sets ≠ []) (s : Progress)
    (device : Text) (rows : List CassRow)
    : (handleRows r s device rows).Forgets := by
  refine (blind_ofExcept _).bind_forgets fun read => ?_
  refine (blind_ofExcept _).bind_forgets fun samples => ?_
  exact (addSamplesets_forgets compresses samples).bind _

theorem handleDevice_blind {r : Request} (compresses : r.sets ≠ []) (archive : Archive)
    (s : Progress) (device : Text)
    : (handleDevice archive r s device).Blind := by
  rw [handleDevice]
  cases archive (r.querystr device) with
  | none => exact blind_pure _
  | some rows => exact (handleRows_forgets compresses s device rows).blind

theorem handleDevices_blind {r : Request} (compresses : r.sets ≠ []) (archive : Archive)
    (timestampcass : Int64)
    : (handleDevices archive timestampcass r).Blind := by
  rw [handleDevices]
  split_ifs with devices
  · exact blind_throw _
  · exact blind_foldlM (handleDevice_blind compresses archive) _ _

/-- The outcome of a handler alone, from that of the block whose exceptions it catches. -/
theorem socketHandler_alone (archive : Archive) (c : Connection) (v : Int32)
    : (socketHandler archive c).alone v
      = if c.sent = [] then .ok .nothing else caught ((handle archive c).eval v).1 := by
  rw [socketHandler, Program.alone]
  split_ifs with closed
  · rfl
  · rw [Program.run_map]
    rfl

/-- A handler whose request chooses a compression and a channel responds the same, whatever
earlier handlers have left in `numsamples`.
-/
theorem socketHandler_alone_eq (archive : Archive) (c : Connection)
    (compresses : ∀ r, parseRequest (receive c.sent c.beyond) = .ok r → r.sets ≠ [])
    (v w : Int32)
    : (socketHandler archive c).alone v = (socketHandler archive c).alone w := by
  have blind : (handle archive c).Blind := by
    rw [handle]
    split_ifs with connected
    · refine blind_ofExcept_bind fun r parsed => ?_
      exact (handleDevices_blind (compresses r parsed) _ _).bind fun s => blind_pure _
    · exact blind_pure _
  rw [socketHandler_alone, socketHandler_alone, (blind v w).1]

end Sparcs.CassSpeed
