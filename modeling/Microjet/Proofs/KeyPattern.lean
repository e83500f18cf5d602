import Microjet.Proofs.KeyFormat
import Mathlib.Data.List.Chain

/-!
# What the parser of key patterns accepts

Every string is a `Scan`, or one followed by an opening brace that is never closed
(`scan_or_unclosed`), and the loop of `parseKeyFormat` takes one part of a scan in each round
(`parseSegments_part`).
-/

namespace Microjet.Dynamo

open Errorx

/-- A text, and what stands in the braces after it. -/
structure Part where
  text : GoString
  inner : GoString
  noOpen : 123 ∉ text
  noClose : 125 ∉ inner

/-- The part as text. -/
def Part.braced (p : Part) (name : GoString) : GoString := p.text ++ 123 :: (name ++ [125])

/-- The name in the braces. -/
def Part.name (selfName : GoString) (p : Part) : GoString :=
  if p.inner = [] then selfName else p.inner

/-- Parts, and the text after the last braces. -/
structure Scan where
  parts : List Part
  last : GoString
  noOpen : 123 ∉ last

/-- The pattern it is. -/
def Scan.pattern (s : Scan) : GoString := s.parts.flatMap (fun p => p.braced p.inner) ++ s.last

/-- The pattern with the self name in each empty pair of braces. -/
def Scan.filled (selfName : GoString) (s : Scan) : GoString :=
  s.parts.flatMap (fun p => p.braced (p.name selfName)) ++ s.last

/-- There is such a field. -/
def StructType.HasField (t : StructType) (name : GoString) : Prop :=
  ∃ f ∈ t.fields, f.name = name

/-- A segment as text. -/
def KeySegment.render (t : StructType) : KeySegment → GoString
  | .literal s => s
  | .field i => 123 :: ((t.fields[i]?.map StructField.name).getD [] ++ [125])

/-- A format as text. -/
def KeyFormat.render (t : StructType) (kf : KeyFormat) : GoString :=
  kf.segments.flatMap (KeySegment.render t)

/-! ### Reading a part -/

/-- A literal, unless it is empty. -/
def literals (text : GoString) : List KeySegment := if text = [] then [] else [.literal text]

section Loop

variable {pattern selfName : GoString} {t : StructType} {fuel : Nat}

/-- A round of the loop. -/
def Part.read (pattern selfName : GoString) (t : StructType) (p : Part)
    (rest : Except Err (List KeySegment)) : Except Err (List KeySegment) :=
  match structFieldIndex t (p.name selfName) with
  | .error _ =>
    .error (newInternalError "dynamo" "format references unknown field"
      [("format", GoString.text pattern), ("field", GoString.text (p.name selfName)),
        ("type", GoString.text t.name)])
  | .ok idx => do
      let segs ← rest
      return literals p.text ++ .field idx :: segs

theorem parseSegments_last {last : GoString} (h : 123 ∉ last) (hfuel : last.length ≤ fuel) :
    parseSegments pattern selfName t fuel last = .ok (literals last) := by
  cases last with
  | nil => cases fuel <;> rfl
  | cons c cs =>
    obtain ⟨fuel, rfl⟩ : ∃ n, fuel = n + 1 := Nat.exists_eq_succ_of_ne_zero (by
      rw [List.length_cons] at hfuel
      omega)
    have hopen : Search.indexOf (bytes "\x7b") (c :: cs) = none :=
      Search.indexOf_singleton_eq_none.mpr h
    rw [parseSegments]
    simp only [hopen]
    rfl

theorem parseSegments_unclosed {text tail : GoString} (htext : 123 ∉ text) (htail : 125 ∉ tail)
    (hfuel : (text ++ 123 :: tail).length ≤ fuel) :
    parseSegments pattern selfName t fuel (text ++ 123 :: tail) =
      .error (newInternalError "dynamo" "unclosed \x7b in format"
        [("format", GoString.text pattern)]) := by
  obtain ⟨c, cs, hcs⟩ : ∃ c cs, text ++ 123 :: tail = c :: cs :=
    List.exists_cons_of_ne_nil (by simp)
  have hopen : Search.indexOf (bytes "\x7b") (c :: cs) = some text.length :=
    hcs ▸ Search.indexOf_singleton_append htext tail
  have hdrop : (c :: cs).drop text.length = 123 :: tail := by rw [← hcs, List.drop_left]
  have hclose : Search.indexOf (bytes "\x7d") (123 :: tail) = none :=
    Search.indexOf_singleton_eq_none.mpr (List.not_mem_cons_of_ne_of_not_mem (by decide) htail)
  obtain ⟨fuel, rfl⟩ : ∃ n, fuel = n + 1 := Nat.exists_eq_succ_of_ne_zero (by
    rw [List.length_append, List.length_cons] at hfuel
    omega)
  rw [hcs, parseSegments]
  simp only [hopen, hdrop, hclose]

theorem parseSegments_part (p : Part) (rest : GoString) :
    parseSegments pattern selfName t (fuel + 1) (p.braced p.inner ++ rest) =
      p.read pattern selfName t (parseSegments pattern selfName t fuel rest) := by
  have hsplit : p.braced p.inner ++ rest = p.text ++ 123 :: (p.inner ++ 125 :: rest) := by
    simp [Part.braced]
  -- the loop wants to see a first byte
  obtain ⟨c, cs, hcs⟩ : ∃ c cs, p.text ++ 123 :: (p.inner ++ 125 :: rest) = c :: cs :=
    List.exists_cons_of_ne_nil (by simp)
  have hopen : Search.indexOf (bytes "\x7b") (c :: cs) = some p.text.length :=
    hcs ▸ Search.indexOf_singleton_append p.noOpen _
  have hdrop : (c :: cs).drop p.text.length = 123 :: (p.inner ++ 125 :: rest) := by
    rw [← hcs, List.drop_left]
  have hclose : Search.indexOf (bytes "\x7d") (123 :: (p.inner ++ 125 :: rest)) =
      some (p.inner.length + 1) :=
    Search.indexOf_singleton_append (v := 123 :: p.inner)
      (List.not_mem_cons_of_ne_of_not_mem (by decide) p.noClose) rest
  have hinner : ((c :: cs).drop (p.text.length + 1)).take (p.inner.length + 1 - 1) = p.inner := by
    rw [← List.drop_drop, hdrop]
    simp
  have hrest : (c :: cs).drop (p.text.length + (p.inner.length + 1) + 1) = rest := by
    rw [Nat.add_assoc, ← List.drop_drop, hdrop]
    simp
  have hlits : (if 0 < p.text.length then [KeySegment.literal ((c :: cs).take p.text.length)]
      else []) = literals p.text := by
    rw [← hcs, List.take_left, literals]
    cases p.text <;> simp
  rw [hsplit, hcs, parseSegments]
  simp only [hopen, hdrop, hclose, hinner, hrest, hlits]
  rfl

theorem parseSegments_parts {rest : GoString} {tail : Except Err (List KeySegment)}
    (htail : ∀ fuel, rest.length ≤ fuel → parseSegments pattern selfName t fuel rest = tail)
    (parts : List Part) {fuel : Nat}
    (hfuel : (parts.flatMap (fun p => p.braced p.inner) ++ rest).length ≤ fuel) :
    parseSegments pattern selfName t fuel (parts.flatMap (fun p => p.braced p.inner) ++ rest) =
      parts.foldr (Part.read pattern selfName t) tail := by
  induction parts generalizing fuel with
  | nil => exact htail fuel hfuel
  | cons p parts ih =>
    -- a part is not empty, and so one round is paid for
    have hpos : 0 < (p.braced p.inner).length := by
      simp only [Part.braced, List.length_append, List.length_cons]
      omega
    rw [List.flatMap_cons, List.append_assoc] at hfuel ⊢
    rw [List.length_append] at hfuel
    obtain ⟨fuel, rfl⟩ : ∃ n, fuel = n + 1 := Nat.exists_eq_succ_of_ne_zero (by omega)
    rw [parseSegments_part, ih (by omega), List.foldr_cons]

theorem parseSegments_scan (s : Scan) (hfuel : s.pattern.length ≤ fuel) :
    parseSegments pattern selfName t fuel s.pattern =
      s.parts.foldr (Part.read pattern selfName t) (.ok (literals s.last)) :=
  parseSegments_parts (fun _ => parseSegments_last s.noOpen) s.parts hfuel

end Loop

/-! ### Every string is a scan, or has a brace that is not closed -/

/-- A pattern whose last opening brace, read from left to right, is not closed. -/
structure Unclosed where
  parts : List Part
  text : GoString
  tail : GoString
  noOpen : 123 ∉ text
  noClose : 125 ∉ tail

/-- The pattern it is. -/
def Unclosed.pattern (u : Unclosed) : GoString :=
  u.parts.flatMap (fun p => p.braced p.inner) ++ (u.text ++ 123 :: u.tail)

theorem parseSegments_of_unclosed {pattern selfName : GoString} {t : StructType} {fuel : Nat}
    (u : Unclosed) (hfuel : u.pattern.length ≤ fuel) :
    parseSegments pattern selfName t fuel u.pattern =
      u.parts.foldr (Part.read pattern selfName t)
        (.error (newInternalError "dynamo" "unclosed \x7b in format"
          [("format", GoString.text pattern)])) :=
  parseSegments_parts (fun _ => parseSegments_unclosed u.noOpen u.noClose) u.parts hfuel

theorem scan_or_unclosed (pattern : GoString) :
    (∃ s : Scan, s.pattern = pattern) ∨ ∃ u : Unclosed, u.pattern = pattern := by
  induction hn : pattern.length using Nat.strong_induction_on generalizing pattern with
  | _ n ih =>
    -- the first opening brace, and then the first closing one behind it
    by_cases hopen : 123 ∈ pattern
    · obtain ⟨text, after, rfl, htext⟩ := List.eq_append_cons_of_mem hopen
      by_cases hclose : 125 ∈ after
      · obtain ⟨inner, rest, rfl, hinner⟩ := List.eq_append_cons_of_mem hclose
        let p : Part := ⟨text, inner, htext, hinner⟩
        have hp : text ++ 123 :: (inner ++ 125 :: rest) = p.braced p.inner ++ rest := by
          simp [p, Part.braced]
        have hlt : rest.length < n := by
          rw [← hn]
          simp
          omega
        rw [hp]
        rcases ih rest.length hlt rest rfl with ⟨s, hs⟩ | ⟨u, hu⟩
        · exact .inl ⟨{ s with parts := p :: s.parts }, by simp [← hs, Scan.pattern]⟩
        · exact .inr ⟨{ u with parts := p :: u.parts }, by simp [← hu, Unclosed.pattern]⟩
      · exact .inr ⟨⟨[], text, after, htext, hclose⟩, rfl⟩
    · exact .inl ⟨⟨[], pattern, hopen⟩, rfl⟩

/-! ### The segments of a scan -/

section Segments

variable {pattern selfName : GoString} {t : StructType}

theorem structFieldIndex_eq_ok {name : GoString} {i : Nat} (h : structFieldIndex t name = .ok i) :
    t.fields[i]?.map StructField.name = some name := by
  unfold structFieldIndex at h
  split at h
  · next j hj =>
      cases h
      obtain ⟨hlt, hname, -⟩ := List.findIdx?_eq_some_iff_getElem.mp hj
      rw [List.getElem?_eq_getElem hlt, Option.map_some, eq_of_beq hname]
  · cases h

theorem structFieldIndex_ok_iff {name : GoString} :
    (∃ i, structFieldIndex t name = .ok i) ↔ t.HasField name := by
  refine ⟨fun ⟨i, hi⟩ => ?_, fun ⟨f, hf, hname⟩ => ?_⟩
  · obtain ⟨f, hf, hname⟩ := Option.map_eq_some_iff.mp (structFieldIndex_eq_ok hi)
    exact ⟨f, List.mem_of_getElem? hf, hname⟩
  · have hsome : (t.fields.findIdx? (·.name == name)).isSome = true :=
      List.findIdx?_isSome.trans (List.any_eq_true.mpr ⟨f, hf, by simp [hname]⟩)
    obtain ⟨i, hi⟩ := Option.isSome_iff_exists.mp hsome
    exact ⟨i, by rw [structFieldIndex, hi]⟩

variable {segs : List KeySegment}

theorem Part.read_eq_ok {p : Part} {rest : Except Err (List KeySegment)} :
    p.read pattern selfName t rest = .ok segs ↔
      ∃ i segs', structFieldIndex t (p.name selfName) = .ok i ∧ rest = .ok segs' ∧
        segs = literals p.text ++ .field i :: segs' := by
  unfold Part.read
  split
  · next herr => simp [herr]
  · next i hi =>
      rw [except_bind_eq_ok]
      simp only [hi, Except.ok.injEq, exists_and_left, exists_eq_left', pure, Except.pure]
      refine exists_congr fun segs' => and_congr_right fun _ => eq_comm

variable {parts : List Part}

theorem foldr_read_ok_iff {tail : Except Err (List KeySegment)} :
    (∃ segs, parts.foldr (Part.read pattern selfName t) tail = .ok segs) ↔
      (∀ p ∈ parts, t.HasField (p.name selfName)) ∧ ∃ segs, tail = .ok segs := by
  induction parts with
  | nil => simp
  | cons p parts ih =>
    rw [List.forall_mem_cons, and_assoc, ← ih, ← structFieldIndex_ok_iff]
    simp only [List.foldr_cons, Part.read_eq_ok]
    constructor
    · rintro ⟨segs, i, segs', hi, hrest, -⟩
      exact ⟨⟨i, hi⟩, segs', hrest⟩
    · rintro ⟨⟨i, hi⟩, segs', hrest⟩
      exact ⟨_, i, segs', hi, hrest, rfl⟩

theorem render_literals (text : GoString) :
    (literals text).flatMap (KeySegment.render t) = text := by
  cases text with
  | nil => rfl
  | cons c cs => simp [literals, KeySegment.render]

theorem render_foldr_read {last : GoString}
    (h : parts.foldr (Part.read pattern selfName t) (.ok (literals last)) = .ok segs) :
    segs.flatMap (KeySegment.render t) =
      parts.flatMap (fun p => p.braced (p.name selfName)) ++ last := by
  induction parts generalizing segs with
  | nil =>
    cases h
    exact render_literals last
  | cons p parts ih =>
    obtain ⟨i, segs', hi, hrest, rfl⟩ := Part.read_eq_ok.mp h
    have hfield : KeySegment.render t (.field i) = 123 :: (p.name selfName ++ [125]) := by
      rw [KeySegment.render, structFieldIndex_eq_ok hi, Option.getD_some]
    rw [List.flatMap_append, List.flatMap_cons, render_literals, hfield, ih hrest,
      List.flatMap_cons, Part.braced]
    simp

/-- No two literals meet. -/
def Alternates (segs : List KeySegment) : Prop :=
  segs.IsChain fun a b => a.isField = true ∨ b.isField = true

theorem alternates_foldr_read {last : GoString}
    (h : parts.foldr (Part.read pattern selfName t) (.ok (literals last)) = .ok segs) :
    Alternates segs := by
  induction parts generalizing segs with
  | nil =>
    cases h
    unfold literals
    split
    · exact List.IsChain.nil
    · exact List.IsChain.singleton _
  | cons p parts ih =>
    obtain ⟨i, segs', -, hrest, rfl⟩ := Part.read_eq_ok.mp h
    -- behind the literal of a part comes its placeholder
    have hfield : Alternates (.field i :: segs') :=
      List.isChain_cons.mpr ⟨fun _ _ => .inl rfl, ih hrest⟩
    unfold literals
    split
    · exact hfield
    · exact List.isChain_cons_cons.mpr ⟨.inr rfl, hfield⟩

end Segments

section Parser

variable {pattern selfName : GoString} {t : StructType}

/-- Any two budgets that cover the pattern give the same. -/
theorem parseSegments_indep {rest : GoString} {fuel fuel' : Nat} (hfuel : rest.length ≤ fuel)
    (hfuel' : rest.length ≤ fuel') :
    parseSegments pattern selfName t fuel rest = parseSegments pattern selfName t fuel' rest := by
  rcases scan_or_unclosed rest with ⟨s, rfl⟩ | ⟨u, rfl⟩
  · rw [parseSegments_scan s hfuel, parseSegments_scan s hfuel']
  · rw [parseSegments_of_unclosed u hfuel, parseSegments_of_unclosed u hfuel']

theorem parseKeyFormat_eq_ok {kf : KeyFormat} :
    parseKeyFormat pattern selfName t = .ok kf ↔
      parseSegments pattern selfName t pattern.length pattern = .ok kf.segments := by
  rw [parseKeyFormat, except_bind_eq_ok]
  constructor
  · rintro ⟨segs, hsegs, heq⟩
    cases heq
    exact hsegs
  · intro h
    exact ⟨kf.segments, h, rfl⟩

theorem parseKeyFormat_scan (s : Scan) {kf : KeyFormat} :
    parseKeyFormat s.pattern selfName t = .ok kf ↔
      s.parts.foldr (Part.read s.pattern selfName t) (.ok (literals s.last)) =
        .ok kf.segments := by
  rw [parseKeyFormat_eq_ok, parseSegments_scan s (Nat.le_refl _)]

theorem parseKeyFormat_unclosed (u : Unclosed) (kf : KeyFormat) :
    parseKeyFormat u.pattern selfName t ≠ .ok kf := by
  intro h
  rw [parseKeyFormat_eq_ok, parseSegments_of_unclosed u (Nat.le_refl _)] at h
  obtain ⟨-, segs, hsegs⟩ := foldr_read_ok_iff.mp ⟨_, h⟩
  cases hsegs

theorem parseKeyFormat_ok_iff (hself : t.HasField selfName) :
    (∃ kf, parseKeyFormat pattern selfName t = .ok kf) ↔
      ∃ s : Scan, s.pattern = pattern ∧ ∀ p ∈ s.parts, p.inner = [] ∨ t.HasField p.inner := by
  have hname (p : Part) : t.HasField (p.name selfName) ↔ p.inner = [] ∨ t.HasField p.inner := by
    unfold Part.name
    split
    · next h => simp [h, hself]
    · next h => simp [h]
  constructor
  · rintro ⟨kf, hkf⟩
    rcases scan_or_unclosed pattern with ⟨s, rfl⟩ | ⟨u, rfl⟩
    · obtain ⟨hparts, -⟩ := foldr_read_ok_iff.mp ⟨_, (parseKeyFormat_scan s).mp hkf⟩
      exact ⟨s, rfl, fun p hp => (hname p).mp (hparts p hp)⟩
    · exact absurd hkf (parseKeyFormat_unclosed u kf)
  · rintro ⟨s, rfl, hparts⟩
    have hread : ∃ segs,
        s.parts.foldr (Part.read s.pattern selfName t) (.ok (literals s.last)) = .ok segs :=
      foldr_read_ok_iff.mpr ⟨fun p hp => (hname p).mpr (hparts p hp), literals s.last, rfl⟩
    obtain ⟨segs, hsegs⟩ := hread
    exact ⟨⟨segs⟩, (parseKeyFormat_scan s).mpr hsegs⟩

/-- The loop ends within as many rounds as the pattern has bytes. It succeeds exactly if every
opening brace is closed and has nothing or a field in it, and then the segments are the pattern. -/
theorem parseKeyFormat_faithful (pattern : GoString) (hself : t.HasField selfName) :
    (∀ fuel, pattern.length ≤ fuel →
      parseSegments pattern selfName t fuel pattern =
        parseSegments pattern selfName t pattern.length pattern) ∧
      ((∃ kf, parseKeyFormat pattern selfName t = .ok kf) ↔
        ∃ s : Scan, s.pattern = pattern ∧ ∀ p ∈ s.parts, p.inner = [] ∨ t.HasField p.inner) ∧
      ∀ kf, parseKeyFormat pattern selfName t = .ok kf →
        (∀ s : Scan, s.pattern = pattern → kf.render t = s.filled selfName) ∧
          (∀ s, KeySegment.literal s ∈ kf.segments → s ≠ []) ∧ Alternates kf.segments := by
  refine ⟨fun fuel hfuel => parseSegments_indep hfuel (Nat.le_refl _),
    parseKeyFormat_ok_iff hself, fun kf hkf => ⟨?_, (parseKeyFormat_ok hkf).1, ?_⟩⟩
  · rintro s rfl
    exact render_foldr_read ((parseKeyFormat_scan s).mp hkf)
  · rcases scan_or_unclosed pattern with ⟨s, rfl⟩ | ⟨u, rfl⟩
    · exact alternates_foldr_read ((parseKeyFormat_scan s).mp hkf)
    · exact absurd hkf (parseKeyFormat_unclosed u kf)

def ticketType : StructType where
  name := bytes "Ticket"
  fields := [{ name := bytes "Owner", type := .uuid }, { name := bytes "ID", type := .string }]

def ticketScan : Scan where
  parts :=
    [⟨bytes "T:", [], by decide, by decide⟩,
      ⟨bytes "/", bytes "Owner", by decide, by decide⟩]
  last := []
  noOpen := by decide

theorem ticket_pattern :
    ticketType.HasField (bytes "ID") ∧
      ∃ kf, parseKeyFormat (bytes "T:\x7b\x7d/\x7bOwner\x7d") (bytes "ID") ticketType = .ok kf ∧
        kf.render ticketType = bytes "T:\x7bID\x7d/\x7bOwner\x7d" := by
  have hself : ticketType.HasField (bytes "ID") :=
    ⟨_, List.mem_cons_of_mem _ List.mem_cons_self, rfl⟩
  obtain ⟨-, hok, hkf⟩ := parseKeyFormat_faithful ticketScan.pattern hself
  obtain ⟨kf, hparse⟩ := hok.mpr ⟨ticketScan, rfl, by
    intro p hp
    rcases List.mem_cons.mp hp with rfl | hp
    · exact .inl rfl
    · rw [List.mem_singleton.mp hp]
      exact .inr ⟨_, List.mem_cons_self, rfl⟩⟩
  exact ⟨hself, kf, hparse, (hkf kf hparse).1 ticketScan rfl⟩

end Parser

end Microjet.Dynamo
