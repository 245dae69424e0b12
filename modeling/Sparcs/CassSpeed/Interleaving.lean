import Sparcs.CassSpeed.SocketHandler

/-! Handlers that run at the same time on one archive. They share `numsamples`: what one of
them stores there, another one may send.
-/

namespace Sparcs.CassSpeed

open SharedCell

variable {ι : Type} [DecidableEq ι]

/-- The handlers of some connections, with a value of `numsamples`. -/
def handlers (archive : Archive) (connections : ι → Connection) (numsamples : Int32)
    : Threads ι Int32 (Except Fault Response) :=
  Threads.start (fun i => socketHandler archive (connections i)) numsamples

/-- Each response that a schedule leads to is the one that the handler alone comes to. -/
def RespondAlone (archive : Archive) (connections : ι → Connection) (numsamples : Int32)
    (schedule : List ι)
    : Prop :=
  ∀ i outcome,
    (((handlers archive connections numsamples).run schedule).programs i).result? = some outcome
    → outcome = (socketHandler archive (connections i)).alone numsamples

/-- In every interleaving in which a handler that reads `numsamples` finds there what its own
last compressor has stored, or what stood there at its start, each response is the one that
the request gets alone.
-/
theorem handlers_respondAlone (archive : Archive) (connections : ι → Connection)
    (numsamples : Int32) (schedule : List ι)
    (undisturbed : (handlers archive connections numsamples).Undisturbed schedule)
    : RespondAlone archive connections numsamples schedule := by
  intro i outcome ended
  exact @Threads.result_of_undisturbed _ _ _ _ i (fun i => socketHandler archive (connections i))
    _ _ _ undisturbed ended

/-- One second of 120 samples that all are zero. -/
def zeroSecond : CassRow :=
  { timestampMsec := 1480355400000,
    data := { numsamples := 120, sample := List.replicate 120 fun _ => 0 } }

/-- A client that asks for the first channel of one device, second by second. -/
def askFor (request : String) : Connection :=
  { sent := request.toList ++ [nul], beyond := [], connects := true, timestampcass := 0 }

/-- The same second, raw and by skipping to every sample. -/
def rawAndSkip (skips : Bool) : Connection :=
  if skips then
    askFor "1;P3001199;1;1480355400000;1480355401000;1;0;0;0;0;0;0;0;0;0;0;0;8;1"
  else
    askFor "1;P3001199;1;1480355400000;1480355401000;1;0;0;0;0;0;0;0;0;0;0;0;16;1"

def sentNumsamples : Except Fault Response → Option UInt32
  | .ok (.payload payload) => payload.numsamples
  | _ => none

/-- One handler after the other is undisturbed: the second stores before it reads. -/
theorem handlers_respondAlone_inTurn
    : RespondAlone (fun _ => some [zeroSecond]) rawAndSkip 0
        [false, false, false, true, true, true] := by
  exact handlers_respondAlone _ _ _ _ (by decide +kernel)

/-- The handler that is done first stores its 119 samples between the compressor of the other,
which finds 120, and its reads.
-/
theorem handlers_not_respondAlone
    : ¬RespondAlone (fun _ => some [zeroSecond]) rawAndSkip 0 [false, true, false, false] := by
  intro alone
  have sent
      : ((((handlers (fun _ => some [zeroSecond]) rawAndSkip 0).run
            [false, true, false, false]).programs false).result?.bind sentNumsamples)
          = some 119 := by
    decide +kernel
  have expected
      : sentNumsamples ((socketHandler (fun _ => some [zeroSecond]) (rawAndSkip false)).alone 0)
        = some 120 := by
    decide +kernel
  obtain ⟨outcome, ended, counted⟩ := Option.bind_eq_some_iff.mp sent
  rw [alone false outcome ended, expected] at counted
  cases counted

end Sparcs.CassSpeed
