import Sparcs.CassSpeed.HandlerAnswers

/-! Requests that are answered with a payload: every device is found, and every compressor that is
requested returns.
-/

namespace Sparcs.CassSpeed

open Handling
open SharedCell

variable {α β γ : Type}

/-- Whatever `numsamples` holds, the function returns something of which `post` holds. -/
def Handling.Succeeds (h : Handling α) (post : α → Prop) : Prop :=
  ∀ v, ∃ a w, h.eval v = (.ok a, w) ∧ post a

namespace Handling

theorem succeeds_pure {a : α} {post : α → Prop} (holds : post a)
    : (pure a : Handling α).Succeeds post :=
  fun v => ⟨a, v, rfl, holds⟩

theorem succeeds_ofExcept {e : Except Fault α} {a : α} (result : e = .ok a)
    : (ofExcept e : Handling α).Succeeds (· = a) := by
  intro v
  rw [eval_ofExcept, result]
  exact ⟨a, v, rfl, rfl⟩

theorem succeeds_readNumsamples : readNumsamples.Succeeds fun _ => True :=
  fun v => ⟨v, v, rfl, trivial⟩

theorem succeeds_writeNumsamples (w : Int32) : (writeNumsamples w).Succeeds fun _ => True :=
  fun _ => ⟨(), w, rfl, trivial⟩

theorem Succeeds.bind {h : Handling α} {next : α → Handling β} {mid : α → Prop}
    {post : β → Prop} (first : h.Succeeds mid) (rest : ∀ a, mid a → (next a).Succeeds post)
    : (h >>= next).Succeeds post := by
  intro v
  obtain ⟨a, u, result, holds⟩ := first v
  obtain ⟨b, w, result', holds'⟩ := rest a holds u
  refine ⟨b, w, ?_, holds'⟩
  rw [eval_bind, result]
  exact result'

/-- A loop whose turns keep an invariant. -/
theorem Succeeds.foldlM {turn : β → γ → Handling β} {inv : β → Prop} {cs : List γ}
    (turns : ∀ b, inv b → ∀ c ∈ cs, (turn b c).Succeeds inv) {b : β} (holds : inv b)
    : (cs.foldlM turn b).Succeeds inv := by
  induction cs generalizing b with
  | nil => exact succeeds_pure holds
  | cons c cs ih =>
      refine (turns b holds c List.mem_cons_self).bind fun b' holds' => ?_
      exact ih (fun b holds other member => turns b holds other (List.mem_cons_of_mem _ member))
        holds'

theorem Succeeds.mapM {f : γ → Handling β} {cs : List γ}
    (each : ∀ c ∈ cs, (f c).Succeeds fun _ => True)
    : (cs.mapM f).Succeeds fun _ => True := by
  induction cs with
  | nil => exact succeeds_pure trivial
  | cons c cs ih =>
      rw [List.mapM_cons]
      refine (each c List.mem_cons_self).bind fun b _ => ?_
      refine (ih fun other member => each other (List.mem_cons_of_mem _ member)).bind
        fun bs _ => ?_
      exact succeeds_pure trivial

end Handling

/-- The rows of a device with which its turn returns. -/
structure Answerable (r : Request) (rows : List CassRow) : Prop where
  readable : ∀ row ∈ rows, row.Readable
  enough : r.skip.toInt.toNat ≤ (rows.flatMap CassRow.samples).length
  compresses
    : ∀ set ∈ r.sets, ∃ output,
        set.1.compressor ((trimmed r rows).map (· set.2)) r.stepsize.toUInt32 = .ok output

/-- A payload is being filled, and no query has failed. -/
def Progress.Filling (s : Progress) : Prop := s.errorcode = ""

theorem addSampleset_succeeds {samples : List UpmuSample} {stepsize : Int32}
    {set : Compression × Channel} {output : Samples}
    (compresses
      : set.1.compressor (samples.map (· set.2)) stepsize.toUInt32 = .ok output)
    : (addSampleset samples stepsize set).Succeeds fun _ => True := by
  have compressed : (compress set.1 (samples.map (· set.2)) stepsize).Succeeds fun _ => True := by
    refine (succeeds_ofExcept compresses).bind fun output' _ => ?_
    exact (succeeds_writeNumsamples _).bind fun _ _ => succeeds_pure trivial
  exact compressed.bind fun _ _ => succeeds_pure trivial

theorem handleRows_succeeds {r : Request} {s : Progress} (filling : s.Filling) (device : Text)
    {rows : List CassRow} (answerable : Answerable r rows)
    : (handleRows r s device rows).Succeeds Progress.Filling := by
  have read := (@readRows_eq_ok_iff s.oldest _ rows _).mpr ⟨answerable.readable, rfl, rfl⟩
  refine (succeeds_ofExcept read).bind ?_
  rintro _ rfl
  have cut := eraseFront_eq_ok_iff.mpr ⟨answerable.enough, rfl⟩
  refine (succeeds_ofExcept cut).bind ?_
  rintro _ rfl
  refine (Succeeds.mapM fun set requested => ?_).bind fun sampleset _ => ?_
  · obtain ⟨output, compresses⟩ := answerable.compresses set requested
    exact addSampleset_succeeds compresses
  · refine succeeds_readNumsamples.bind fun covered _ => ?_
    exact succeeds_readNumsamples.bind fun count _ => succeeds_pure filling

/-- A request is answered with a payload if each of its devices can be. -/
theorem socketHandler_responds {archive : Archive} {c : Connection} {r : Request}
    (sent : c.sent ≠ []) (connects : c.connects = true)
    (parsed : parseRequest (receive c.sent c.beyond) = .ok r) (devices : r.devices ≠ [])
    (answerable
      : ∀ device ∈ r.devices, ∃ rows,
          archive (r.querystr device) = some rows ∧ Answerable r rows)
    (v : Int32)
    : ∃ payload w, (socketHandler archive c).run v = (.ok (.payload payload), w) := by
  have turns : ∀ s : Progress, s.Filling → ∀ device ∈ r.devices,
      (handleDevice archive r s device).Succeeds Progress.Filling := by
    intro s filling device member
    obtain ⟨rows, found, rows_⟩ := answerable device member
    rw [handleDevice, found]
    exact handleRows_succeeds filling device rows_
  have handles
      : (handle archive c).Succeeds fun response => ∃ payload, response = .payload payload := by
    rw [handle, if_pos connects]
    refine (succeeds_ofExcept parsed).bind ?_
    rintro _ rfl
    rw [handleDevices, if_neg devices]
    refine Succeeds.bind (Succeeds.foldlM turns rfl) fun s filling => succeeds_pure ?_
    have notFailed : ¬(s.errorcode = "-4" ∧ s.payload.numsamples = none) := by
      rintro ⟨failed, -⟩
      rw [show s.errorcode = "" from filling] at failed
      exact absurd failed (by decide)
    exact ⟨s.payload, by rw [Progress.response, if_neg notFailed]⟩
  obtain ⟨response, w, result, payload, rfl⟩ := handles v
  refine ⟨payload, w, ?_⟩
  rw [socketHandler, if_neg sent, Program.run_map]
  change (caught ((handle archive c).eval v).1, ((handle archive c).eval v).2) = _
  rw [result]
  rfl

end Sparcs.CassSpeed
