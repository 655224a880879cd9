import Mathlib.Data.List.Flatten
import Verdict.Pattern.Template
import Verdict.Proofs.Pattern.Matching

namespace Verdict

namespace Pattern

variable {p : Pattern} {last start stop : Spot}

/-- The next match begins where the last one has ended, or later. -/
theorem findAfter?_leads (h : p.findAfter? last = some (start, stop)) :
    ∃ gap, last.Reads gap start ∧ p.Leads start stop := by
  unfold findAfter? at h
  split at h
  next => cases h
  next hfind =>
    split at h
    next =>
      split at h
      next => cases h
      next c rest hrest =>
        obtain ⟨gap, hgap, hleads⟩ := find?_leads h
        exact ⟨c :: gap, (Spot.Reads.next hrest).trans hgap, hleads⟩
    next =>
      cases h
      exact find?_leads hfind

/-- The next match ends later than the last one. -/
theorem left_lt_of_findAfter? (hlast : last.Counted) (h : p.findAfter? last = some (start, stop)) :
    stop.left < last.left := by
  have hreads : ∀ {spot : Spot}, spot.Counted → p.find? spot = some (start, stop) →
      start.left ≤ spot.left ∧ stop.left ≤ start.left := by
    intro spot hspot hfind
    obtain ⟨gap, hgap, m, hm, _⟩ := find?_leads hfind
    have hstart := hgap.left_eq hspot
    have hstop := hm.left_eq (hgap.counted hspot)
    omega
  unfold findAfter? at h
  split at h
  next => cases h
  next hfind =>
    split at h
    next =>
      split at h
      next => cases h
      next c rest hrest =>
        have hnext := Spot.Reads.next hrest
        have hleft := hnext.left_eq hlast
        have hle := hreads (hnext.counted hlast) h
        rw [List.length_singleton] at hleft
        omega
    next hempty =>
      cases h
      have hle := hreads hlast hfind
      omega

theorem findAfter?_eq_none_of_left (hlast : last.Counted) (hleft : last.left = 0) :
    p.findAfter? last = none := by
  cases h : p.findAfter? last with
  | none => rfl
  | some found =>
    obtain ⟨start, stop⟩ := found
    have hlt := left_lt_of_findAfter? hlast h
    omega

end Pattern

namespace Segment

/-- The text that some segments have been cut from. -/
def source (segments : List Segment) : List Char :=
  segments.flatMap fun segment => segment.gap ++ segment.matched

theorem between_eq {last start stop : Spot} {gap m : List Char} (hlast : last.Counted)
    (hgap : last.Reads gap start) (hm : start.Reads m stop) :
    (between last start stop).gap = gap ∧ (between last start stop).matched = m := by
  have hstart := hgap.left_eq hlast
  have hstop := hm.left_eq (hgap.counted hlast)
  have hgaplength : last.left - start.left = gap.length := by omega
  have hlength : start.left - stop.left = m.length := by omega
  exact ⟨by rw [between, hgaplength, hgap.rest, List.take_left],
    by rw [between, hlength, hm.rest, List.take_left]⟩

end Segment

namespace Regex

variable {re : Regex} {last start stop : Spot} {s gap : List Char} {done : List Segment}

/-- A segment whose match stands in a text, in a place where the pattern matches it. -/
def Finds (re : Regex) (s : List Char) (segment : Segment) : Prop :=
  ∃ before after, s = before ++ segment.matched ++ after ∧
    re.pattern.Matches (lastRead none before) segment.matched after

/-- The segments that have been cut from a text, the last one first, lead to a spot in it. -/
structure Covers (re : Regex) (s : List Char) (done : List Segment) (last : Spot) : Prop where
  reads : (Spot.ofText s).Reads (Segment.source done.reverse) last
  finds : ∀ segment ∈ done, re.Finds s segment

theorem Covers.next (h : re.Covers s done last) (hgap : last.Reads gap start)
    (hleads : re.pattern.Leads start stop) :
    re.Covers s (Segment.between last start stop :: done) (fresh stop) := by
  obtain ⟨m, hm, hmatch⟩ := hleads
  obtain ⟨hgap', hm'⟩ := Segment.between_eq (h.reads.counted rfl) hgap hm
  have hstart := h.reads.trans hgap
  have hstop := hstart.trans hm
  have hfinds : re.Finds s (Segment.between last start stop) := by
    refine ⟨Segment.source done.reverse ++ gap, stop.rest, ?_, ?_⟩
    · rw [hm']
      exact hstop.rest
    · rw [hm']
      exact hstart.before ▸ hmatch
  have hsource : Segment.source (Segment.between last start stop :: done).reverse =
      Segment.source done.reverse ++ gap ++ m := by
    simp [Segment.source, hgap', hm']
  exact ⟨hsource ▸ ⟨hstop.rest, hstop.before, hstop.counted⟩,
    List.forall_mem_cons.mpr ⟨hfinds, h.finds⟩⟩

theorem Covers.segmentsFrom (h : re.Covers s done last) {fuel : Nat} (hfuel : last.left ≤ fuel) :
    ∃ stop, re.Covers s (re.segmentsFrom fuel last done).1.reverse stop ∧
      stop.rest = (re.segmentsFrom fuel last done).2 ∧ re.pattern.findAfter? stop = none := by
  have hlast : last.Counted := h.reads.counted rfl
  -- Each match leaves less of the text, so the fuel lasts as long as it is no less than what is left.
  induction fuel generalizing last done with
  | zero =>
    exact ⟨last, by rwa [Regex.segmentsFrom, List.reverse_reverse], rfl,
      Pattern.findAfter?_eq_none_of_left hlast (Nat.le_zero.mp hfuel)⟩
  | succ fuel ih =>
    rw [Regex.segmentsFrom]
    split
    next hnone => exact ⟨last, by rwa [List.reverse_reverse], rfl, hnone⟩
    next start stop hfind =>
      obtain ⟨gap, hgap, hleads⟩ := Pattern.findAfter?_leads hfind
      have hlt := Pattern.left_lt_of_findAfter? hlast hfind
      have hnext := h.next hgap hleads
      exact ih hnext (by change stop.left ≤ fuel; omega) (hnext.reads.counted rfl)

/-- The segments lead to the spot where no match is left. -/
theorem segments_covers (re : Regex) (s : List Char) : ∃ stop,
    re.Covers s (re.segments s).1.reverse stop ∧ stop.rest = (re.segments s).2 ∧
      re.pattern.findAfter? stop = none := by
  have hstart : re.Covers s [] (Spot.ofText s) := ⟨.refl _, nofun⟩
  unfold segments segmentsUpTo
  dsimp only
  split
  next hlimit => cases hlimit
  next hnone _ =>
    refine ⟨_, hstart, rfl, ?_⟩
    rw [Pattern.findAfter?, hnone]
  next limit start stop hlimit hfind =>
    cases hlimit
    obtain ⟨gap, hgap, hleads⟩ := Pattern.find?_leads hfind
    have hnext := hstart.next hgap hleads
    refine hnext.segmentsFrom ?_
    have hleft := hnext.reads.left_eq rfl
    change s.length = _ at hleft
    omega

/-- The segments of a text and the rest after the last match are the text again. -/
theorem segments_source (re : Regex) (s : List Char) :
    Segment.source (re.segments s).1 ++ (re.segments s).2 = s := by
  obtain ⟨stop, hcovers, hrest, _⟩ := re.segments_covers s
  have hs := hcovers.reads.rest
  rw [List.reverse_reverse, hrest] at hs
  exact hs.symm

theorem finds_of_mem_segments {segment : Segment} (h : segment ∈ (re.segments s).1) :
    re.Finds s segment := by
  obtain ⟨stop, hcovers, _⟩ := re.segments_covers s
  exact hcovers.finds segment (List.mem_reverse.mpr h)

/-- To put each match in its own place changes nothing. -/
theorem replace_matched (re : Regex) (s : List Char) : re.replace true Segment.matched s = s :=
  re.segments_source s

theorem intercalate_gaps (x rest : List Char) (segments : List Segment) :
    x.intercalate (segments.map Segment.gap ++ [rest]) =
      segments.flatMap (fun segment => segment.gap ++ x) ++ rest := by
  induction segments with
  | nil => exact List.intercalate_singleton
  | cons segment segments ih =>
    rw [List.map_cons, List.cons_append, List.intercalate_cons_of_ne_nil (by simp), ih,
      List.flatMap_cons, List.append_assoc _ _ rest]

end Regex

theorem TemplatePart.read_of_not_mem {x : List Char} (hx : '$' ∉ x) : read 0 x = x.map text := by
  induction x with
  | nil => rfl
  | cons c x ih =>
    obtain ⟨hc, hx⟩ := not_or.mp (mt List.mem_cons.mpr hx)
    rw [read, ih hx]
    · rfl
    · exact fun h => hc h.symm

namespace Regex

/-- A text without a dollar sign stands for itself as a template. -/
theorem replaceBy_eq (re : Regex) {x : List Char} (hx : '$' ∉ x) (all : Bool) (s : List Char) :
    re.replaceBy all x s = re.replace all (fun _ => x) s := by
  have hexpand : re.expand (TemplatePart.read 0 x) = fun _ => x := by
    funext segment
    rw [TemplatePart.read_of_not_mem hx, expand, List.flatMap_map]
    exact List.flatMap_singleton' x
  unfold replaceBy
  dsimp only
  rw [hexpand, ite_self]

/-- A text between the pieces stands where the matches stood. -/
theorem intercalate_split (re : Regex) {x : List Char} (hx : '$' ∉ x) (s : List Char) :
    x.intercalate (re.split s) = re.replaceBy true x s := by
  rw [replaceBy_eq re hx, split, intercalate_gaps]
  rfl

end Regex

end Verdict
