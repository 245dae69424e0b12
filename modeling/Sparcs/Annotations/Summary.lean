import Sparcs.Library.Extremes
import Sparcs.Annotations.Samples

/-! The summary annotation of one second: running minima, maxima and means of magnitudes and
angles, and when they are those of the second's samples.
-/

namespace Sparcs.Annotations

/-- What the annotation has numbers of. -/
inductive Quantity where
  | mag (channel : Channel)
  | ang (channel : Channel)
  deriving DecidableEq, Repr

/-- Angles are summarised as reduced ones. -/
def Quantity.value : Quantity → Sample → ℚ
  | .mag channel, x => x.mag channel
  | .ang channel, x => reduced (x.ang channel)

/-- The local arrays `summary_min`, `summary_max` and `summary_mean` with their counterparts for
currents (`_C`), of either magnitudes or angles (`_a`). A minimum starts at infinity.
-/
structure Accumulators where
  summaryMin : Channel → WithTop ℚ := fun _ => ⊤
  summaryMax : Channel → ℚ := fun _ => 0
  summaryMean : Channel → ℚ := fun _ => 0

/-- The three lines for each channel, with what the line of the mean adds. -/
def Accumulators.add (a : Accumulators) (value added : Channel → ℚ) : Accumulators where
  summaryMin := fun channel => min (a.summaryMin channel) (value channel)
  summaryMax := fun channel => max (a.summaryMax channel) (value channel)
  summaryMean := fun channel => a.summaryMean channel + added channel / upmuSamplesPerSec

structure SummaryArrays where
  mags : Accumulators := {}
  angs : Accumulators := {}

/-- What `summary_mean` and `summary_mean_C` add: the line for C2 adds `C3mag`. -/
def Sample.addedMag (x : Sample) : Channel → ℚ
  | .c2 => x.mag .c3
  | channel => x.mag channel

/-- The part of the sample loop under `annotations_summary`. -/
def SummaryArrays.add (s : SummaryArrays) (x : Sample) : SummaryArrays where
  mags := s.mags.add x.mag x.addedMag
  angs := s.angs.add (fun channel => reduced (x.ang channel)) fun channel => reduced (x.ang channel)

/-- The numbers that the annotation publishes for one quantity. -/
structure Published where
  least : WithTop ℚ
  greatest : ℚ
  mean : ℚ
  deriving DecidableEq

def Accumulators.published (a : Accumulators) (channel : Channel) : Published where
  least := a.summaryMin channel
  greatest := a.summaryMax channel
  mean := a.summaryMean channel

/-- `ANN_MIN_L`, `ANN_MAX_L`, `ANN_MEAN_L` and the same for currents. -/
def publishedSummary (second : Second) : Quantity → Published
  | .mag channel => (second.samples.foldl SummaryArrays.add {}).mags.published channel
  | .ang channel => (second.samples.foldl SummaryArrays.add {}).angs.published channel

/-- Published numbers are the true ones of a quantity. -/
structure Published.IsSummary (p : Published) (second : Second) (value : Sample → ℚ)
    : Prop where
  least : ∃ least : ℚ, p.least = least ∧ IsLeast (value '' {x | x ∈ second.samples}) least
  greatest : IsGreatest (value '' {x | x ∈ second.samples}) p.greatest
  mean : p.mean = (second.samples.map value).sum / upmuSamplesPerSec

section Loop

variable (samples : List Sample) (value added : Sample → Channel → ℚ)

/-- Each channel's numbers are three loops of their own. -/
theorem published_foldl (channel : Channel)
    : (samples.foldl (fun a x => a.add (value x) (added x)) ({} : Accumulators)).published channel
      = { least := samples.foldl (fun least x => min least (value x channel : WithTop ℚ)) ⊤
          greatest := samples.foldl (fun greatest x => max greatest (value x channel)) 0
          mean := (samples.map fun x => added x channel).sum / upmuSamplesPerSec } := by
  have least
      : samples.foldl (fun least x => min least (value x channel : WithTop ℚ)) ⊤
        = (samples.foldl (fun a x => a.add (value x) (added x)) ({} : Accumulators)).summaryMin
            channel :=
    @List.foldl_hom _ _ _ (fun a : Accumulators => a.summaryMin channel) _ _ _ {} fun _ _ => rfl
  have greatest
      : samples.foldl (fun greatest x => max greatest (value x channel)) 0
        = (samples.foldl (fun a x => a.add (value x) (added x)) ({} : Accumulators)).summaryMax
            channel :=
    @List.foldl_hom _ _ _ (fun a : Accumulators => a.summaryMax channel) _ _ _ {} fun _ _ => rfl
  have mean
      : samples.foldl (fun total x => total + added x channel / upmuSamplesPerSec) 0
        = (samples.foldl (fun a x => a.add (value x) (added x)) ({} : Accumulators)).summaryMean
            channel :=
    @List.foldl_hom _ _ _ (fun a : Accumulators => a.summaryMean channel) _ _ _ {} fun _ _ => rfl
  rw [Extremes.foldl_add_div, zero_add] at mean
  rw [Accumulators.published, least, greatest, mean]

end Loop

variable (second : Second)

theorem publishedSummary_mag (channel : Channel)
    : publishedSummary second (.mag channel)
      = (second.samples.foldl (fun a x => a.add x.mag x.addedMag)
          ({} : Accumulators)).published channel := by
  have mags : second.samples.foldl (fun a x => a.add x.mag x.addedMag) ({} : Accumulators)
      = (second.samples.foldl SummaryArrays.add {}).mags :=
    @List.foldl_hom _ _ _ SummaryArrays.mags _ _ _ {} fun _ _ => rfl
  rw [mags, publishedSummary]

theorem publishedSummary_ang (channel : Channel)
    : publishedSummary second (.ang channel)
      = (second.samples.foldl
          (fun a x => a.add (fun channel => reduced (x.ang channel))
            fun channel => reduced (x.ang channel))
          ({} : Accumulators)).published channel := by
  have angs
      : second.samples.foldl
          (fun a x => a.add (fun channel => reduced (x.ang channel))
            fun channel => reduced (x.ang channel))
          ({} : Accumulators)
        = (second.samples.foldl SummaryArrays.add {}).angs :=
    @List.foldl_hom _ _ _ SummaryArrays.angs _ _ _ {} fun _ _ => rfl
  rw [angs, publishedSummary]

/-- Loops over values and over what is added for the mean give the summary of the values just
when some value is not negative and both sums are equal.
-/
theorem isSummary_foldl_iff (value added : Sample → Channel → ℚ) (channel : Channel)
    : ((second.samples.foldl (fun a x => a.add (value x) (added x))
          ({} : Accumulators)).published channel).IsSummary second (fun x => value x channel)
      ↔ (∃ x ∈ second.samples, 0 ≤ value x channel)
        ∧ (second.samples.map fun x => added x channel).sum
          = (second.samples.map fun x => value x channel).sum := by
  have share : (upmuSamplesPerSec : ℚ) ≠ 0 := by norm_num [upmuSamplesPerSec]
  rw [published_foldl, ← Extremes.foldl_max_isGreatest_iff (fun x => value x channel)]
  constructor
  · intro summary
    exact ⟨summary.greatest, (div_left_inj' share).mp summary.mean⟩
  · intro both
    obtain ⟨greatest, sums⟩ := both
    exact ⟨Extremes.foldl_min_top _ second.nonempty, greatest, by rw [sums]⟩

/-- Angles are always summarised, since reduced ones are never negative. -/
theorem publishedSummary_ang_isSummary (channel : Channel)
    : (publishedSummary second (.ang channel)).IsSummary second
        (Quantity.ang channel).value := by
  rw [publishedSummary_ang]
  obtain ⟨x, member⟩ := List.exists_mem_of_ne_nil _ second.nonempty
  exact (isSummary_foldl_iff second (fun x channel => reduced (x.ang channel)) _ channel).mpr
    ⟨⟨x, member, (reduced_spec (x.ang channel)).2.1⟩, rfl⟩

theorem publishedSummary_mag_isSummary_iff (channel : Channel)
    : (publishedSummary second (.mag channel)).IsSummary second (Quantity.mag channel).value
      ↔ (∃ x ∈ second.samples, 0 ≤ x.mag channel)
        ∧ (second.samples.map fun x => x.addedMag channel).sum
          = (second.samples.map fun x => x.mag channel).sum := by
  rw [publishedSummary_mag]
  exact isSummary_foldl_iff second Sample.mag Sample.addedMag channel

/-- All published numbers are the true ones just when each magnitude has a sample that is not
negative, and the magnitudes of C2 and C3 have the same sum.
-/
theorem publishedSummary_isSummary_iff
    : (∀ quantity : Quantity,
        (publishedSummary second quantity).IsSummary second quantity.value)
      ↔ (∀ channel, ∃ x ∈ second.samples, 0 ≤ x.mag channel)
        ∧ (second.samples.map fun x => x.mag .c2).sum
          = (second.samples.map fun x => x.mag .c3).sum := by
  constructor
  · intro summary
    refine ⟨?_, ?_⟩
    · intro channel
      exact ((publishedSummary_mag_isSummary_iff second channel).mp (summary (.mag channel))).1
    · exact ((publishedSummary_mag_isSummary_iff second .c2).mp (summary (.mag .c2))).2.symm
  · intro both quantity
    obtain ⟨reached, sums⟩ := both
    cases quantity with
    | ang channel => exact publishedSummary_ang_isSummary second channel
    | mag channel =>
        refine (publishedSummary_mag_isSummary_iff second channel).mpr ⟨reached channel, ?_⟩
        cases channel with
        | c2 => exact sums.symm
        | l1 => rfl
        | l2 => rfl
        | l3 => rfl
        | c1 => rfl
        | c3 => rfl

/-- A second of one sample, 120 times: L1 has the magnitude -1, C3 has 2 and the others 1. -/
def constantSecond : Second where
  samples :=
    List.replicate 120
      { mag := fun
          | .l1 => -1
          | .c3 => 2
          | _ => 1
        ang := fun _ => 0 }
  full := List.length_replicate

/-- Its maximum of L1 is published as 0, and its mean of C2 as 2. -/
theorem publishedSummary_constantSecond
    : (publishedSummary constantSecond (.mag .l1)).greatest = 0
      ∧ (publishedSummary constantSecond (.mag .c2)).mean = 2
      ∧ ¬∀ quantity : Quantity,
        (publishedSummary constantSecond quantity).IsSummary constantSecond quantity.value := by
  have mean : (publishedSummary constantSecond (.mag .c2)).mean = 2 := by
    rw [publishedSummary_mag, published_foldl]
    rw [constantSecond, List.map_replicate, List.sum_replicate]
    norm_num [Sample.addedMag, upmuSamplesPerSec]
  refine ⟨by decide +kernel, mean, ?_⟩
  intro summary
  have meanOfC2 := (summary (.mag .c2)).mean
  rw [mean] at meanOfC2
  rw [constantSecond, List.map_replicate, List.sum_replicate] at meanOfC2
  norm_num [Quantity.value, upmuSamplesPerSec] at meanOfC2

end Sparcs.Annotations
