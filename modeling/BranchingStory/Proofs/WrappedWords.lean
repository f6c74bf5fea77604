import BranchingStory.Text.Wrap
import Mathlib.Data.List.Chain

/-!
# Word wrap keeps the words

Three things are done to a paragraph: tabs and line ends become spaces, the text is cut into chunks, and the chunks are
distributed over lines, where blank chunks at the edges are dropped. None of them touches a word. A space in place of
another breakable character separates the same words; no two words stand next to each other among the chunks; and what
is dropped is blank. So the lines hold the words of the paragraph, each whole and in order, however narrow the lines are
and whatever the tabs were worth; a line that is too long holds nothing but a word.
-/

namespace BranchingStory
namespace Text

/-! ## Words -/

/-- The pieces that are not made of blank characters only. -/
def notBlank (pieces : List (List Char)) : List (List Char) := pieces.filter (!isBlankChunk ·)

theorem notBlank_append (pieces others : List (List Char)) :
    notBlank (pieces ++ others) = notBlank pieces ++ notBlank others := List.filter_append _ _

theorem notBlank_cons_of_blank {piece : List Char} (h : isBlankChunk piece = true) (pieces : List (List Char)) :
    notBlank (piece :: pieces) = notBlank pieces := List.filter_cons_of_neg (by simp [h])

/-- The words of a text: the longest pieces without a character at which lines break, less those that are blank. -/
def words (cs : List Char) : List (List Char) := notBlank (cs.splitOnP isBreakable)

@[simp] theorem words_nil : words [] = [] := by
  simp [words, notBlank, isBlankChunk]

/-- Everything about words follows from where they end. -/
theorem words_append_cons {c : Char} (hc : isBreakable c = true) (before after : List Char) :
    words (before ++ c :: after) = words before ++ words after := by
  rw [words, List.splitOnP_append_cons before after hc, notBlank_append]
  rfl

theorem words_append_gap {gap : List Char} (hne : gap ≠ []) (hgap : ∀ c ∈ gap, isBreakable c = true)
    (before after : List Char) : words (before ++ gap ++ after) = words before ++ words after := by
  induction gap generalizing before with
  | nil => exact absurd rfl hne
  | cons c gap ih =>
    have hc := hgap c List.mem_cons_self
    rw [List.append_assoc, List.cons_append, words_append_cons hc]
    cases gap with
    | nil => rfl
    | cons next gap =>
      have hrest := ih (List.cons_ne_nil next gap) (fun d hd => hgap d (List.mem_cons_of_mem c hd)) []
      rw [List.nil_append, words_nil, List.nil_append] at hrest
      rw [hrest]

theorem words_gap_append {gap : List Char} (hgap : ∀ c ∈ gap, isBreakable c = true) (after : List Char) :
    words (gap ++ after) = words after := by
  cases gap with
  | nil => rfl
  | cons c gap => simpa using words_append_gap (List.cons_ne_nil c gap) hgap [] after

theorem words_of_solid {word : List Char} (h : ∀ c ∈ word, isBreakable c = false) :
    words word = notBlank [word] := by
  rw [words, List.splitOnP_eq_singleton h]

/-! ## Spaces for tabs and line ends -/

theorem words_append_spaced (column : Nat) (before cs : List Char) :
    words (before ++ (expandTabs column cs).map fun c => if isBreakable c then ' ' else c) =
      words (before ++ cs) := by
  induction cs generalizing column before with
  | nil => rfl
  | cons c rest ih =>
    have hspace : isBreakable ' ' = true := by decide
    -- What stands behind a breakable character is told by the words alone, so the column is of no account.
    have hbreaks : ∀ {gap : List Char} (later : Nat), isBreakable c = true → gap ≠ [] →
        (∀ d ∈ gap, isBreakable d = true) →
        words (before ++ gap ++ (expandTabs later rest).map fun c => if isBreakable c then ' ' else c) =
          words (before ++ c :: rest) := by
      intro gap later hc hne hgap
      rw [words_append_gap hne hgap, words_append_cons hc]
      exact congrArg (words before ++ ·) (ih later [])
    unfold expandTabs
    split
    · rename_i htab
      have hwidth : 8 - column % 8 ≠ 0 := by omega
      rw [List.map_append, ← List.append_assoc]
      refine hbreaks 0 (by rw [htab]; decide) ?_ ?_
      · simpa using hwidth
      · simp [hspace]
    · by_cases hc : isBreakable c = true
      · have hone : ∀ d ∈ [' '], isBreakable d = true := by simp [hspace]
        split <;> rw [List.map_cons, if_pos hc, ← List.singleton_append, ← List.append_assoc]
        · exact hbreaks 0 hc (List.cons_ne_nil _ _) hone
        · exact hbreaks (column + 1) hc (List.cons_ne_nil _ _) hone
      · split <;> rw [List.map_cons, if_neg hc, ← List.singleton_append, ← List.append_assoc, ih, List.append_assoc,
          List.singleton_append]

theorem words_spaced (cs : List Char) : words (spaced cs) = words cs := words_append_spaced 0 [] cs

theorem isBreakable_of_mem_spaced {cs : List Char} {c : Char} (h : c ∈ spaced cs) : isBreakable c = (c == ' ') := by
  obtain ⟨original, _, rfl⟩ := List.mem_map.mp h
  split
  · decide
  · rename_i hnot
    have hne : original ≠ ' ' := by
      rintro rfl
      exact hnot (by decide)
    rw [beq_false_of_ne hne]
    exact Bool.eq_false_iff.mpr hnot

/-! ## Chunks -/

def IsGap (chunk : List Char) : Prop := chunk ≠ [] ∧ ∀ c ∈ chunk, isBreakable c = true

/-- A chunk that no line breaks inside. -/
def IsSolid (chunk : List Char) : Prop := ∀ c ∈ chunk, isBreakable c = false

/-- Chunks that keep words apart: each is a gap or solid, and of two neighbours one is a gap. -/
structure Apart (cs : List (List Char)) : Prop where
  chunk : ∀ chunk ∈ cs, IsGap chunk ∨ IsSolid chunk
  neighbours : cs.IsChain fun a b => IsGap a ∨ IsGap b

theorem Apart.of_infix {cs others : List (List Char)} (h : Apart cs) (hothers : others <:+: cs) : Apart others :=
  ⟨fun chunk hchunk => h.chunk chunk (hothers.subset hchunk), h.neighbours.infix hothers⟩

theorem isBlankChunk_of_isGap {chunk : List Char} (h : IsGap chunk) : isBlankChunk chunk = true :=
  List.all_eq_true.mpr fun c hc => isBlank_of_isBreakable (h.2 c hc)

/-- What is put together from such chunks has the words among them, each whole. -/
theorem Apart.words_flatten {cs : List (List Char)} (h : Apart cs) :
    words cs.flatten = notBlank cs := by
  induction cs with
  | nil => exact words_nil
  | cons chunk rest ih =>
    have hrest := ih (h.of_infix (List.suffix_cons chunk rest).isInfix)
    rw [List.flatten_cons]
    by_cases hgap : IsGap chunk
    · rw [words_gap_append hgap.2, hrest, notBlank_cons_of_blank (isBlankChunk_of_isGap hgap)]
    · have hsolid := (h.chunk chunk List.mem_cons_self).resolve_left hgap
      have hsplit : words (chunk ++ rest.flatten) = words chunk ++ words rest.flatten := by
        cases rest with
        | nil => simp
        | cons next more =>
          have hnext := ((List.isChain_cons_cons.mp h.neighbours).1).resolve_left hgap
          rw [List.flatten_cons, ← List.append_assoc, words_append_gap hnext.1 hnext.2,
            words_gap_append hnext.2]
      rw [hsplit, hrest, words_of_solid hsolid, ← notBlank_append, List.singleton_append]

theorem nil_not_mem_chunks (cs : List Char) : [] ∉ chunks cs := by
  induction cs with
  | nil => exact List.not_mem_nil
  | cons c rest ih =>
    unfold chunks
    split
    · rename_i d run more hchunks
      rw [hchunks] at ih
      split <;> simp_all
    · simp

/-- One more character is a chunk of its own, or it lengthens the first chunk, if both are spaces or neither is. -/
theorem chunks_cons (c : Char) (rest : List Char) :
    (chunks (c :: rest) = [c] :: chunks rest ∧
      ∀ d run more, chunks rest = (d :: run) :: more → (c == ' ') ≠ (d == ' ')) ∨
    ∃ d run more, chunks rest = (d :: run) :: more ∧ chunks (c :: rest) = (c :: d :: run) :: more ∧
      (c == ' ') = (d == ' ') := by
  rw [chunks]
  split
  · rename_i d run more hchunks
    split
    · rename_i hsame
      exact .inr ⟨d, run, more, hchunks, rfl, by simpa using hsame⟩
    · rename_i hother
      left
      refine ⟨by rw [hchunks], fun other otherRun otherMore heq => ?_⟩
      obtain ⟨⟨rfl, _⟩, _⟩ : (d = other ∧ run = otherRun) ∧ more = otherMore := by
        simpa [hchunks] using heq
      simpa using hother
  · rename_i hnone
    left
    have hempty : chunks rest = [] := by
      match hchunks : chunks rest with
      | [] => rfl
      | [] :: more => exact absurd (hchunks ▸ List.mem_cons_self) (nil_not_mem_chunks rest)
      | (d :: run) :: more => exact absurd hchunks (hnone d run more)
    rw [hempty]
    exact ⟨rfl, fun d run more heq => absurd heq (by simp)⟩

theorem flatten_chunks (cs : List Char) : (chunks cs).flatten = cs := by
  induction cs with
  | nil => rfl
  | cons c rest ih =>
    rcases chunks_cons c rest with ⟨hchunks, _⟩ | ⟨d, run, more, hrest, hchunks, _⟩
    · rw [hchunks, List.flatten_cons, ih, List.singleton_append]
    · rw [hrest] at ih
      rw [hchunks, ← ih]
      rfl

theorem isGap_or_isSolid_singleton (c : Char) : IsGap [c] ∨ IsSolid [c] := by
  cases hc : isBreakable c with
  | true => exact .inl ⟨List.cons_ne_nil c [], by simpa using hc⟩
  | false => exact .inr (by simpa [IsSolid] using hc)

theorem IsGap.cons {c : Char} {gap : List Char} (h : IsGap gap) (hc : isBreakable c = true) : IsGap (c :: gap) :=
  ⟨List.cons_ne_nil c gap, List.forall_mem_cons.mpr ⟨hc, h.2⟩⟩

theorem apart_chunks {cs : List Char} (h : ∀ c ∈ cs, isBreakable c = (c == ' ')) : Apart (chunks cs) := by
  induction cs with
  | nil => exact ⟨fun chunk hchunk => absurd hchunk List.not_mem_nil, List.IsChain.nil⟩
  | cons c rest ih =>
    obtain ⟨hc, hothers⟩ := List.forall_mem_cons.mp h
    have hrest := ih hothers
    have hfirst : ∀ {d run more}, chunks rest = (d :: run) :: more → isBreakable d = (d == ' ') := by
      intro d run more hchunks
      refine hothers d ?_
      rw [← flatten_chunks rest, hchunks]
      exact List.mem_cons_self
    -- A character that is a chunk of its own is not of the kind of the next one, so one of the two is a gap; one that
    -- lengthens the first chunk is of its kind, and so the longer chunk gets on with the next as the shorter one did.
    rcases chunks_cons c rest with ⟨hchunks, hother⟩ | ⟨d, run, more, hchunks, hjoined, hsame⟩
    · rw [hchunks]
      refine ⟨List.forall_mem_cons.mpr ⟨isGap_or_isSolid_singleton c, hrest.chunk⟩, ?_⟩
      refine List.isChain_cons.mpr ⟨fun chunk hchunk => ?_, hrest.neighbours⟩
      obtain ⟨more, hmore⟩ := List.head?_eq_some_iff.mp hchunk
      obtain ⟨d, run, rfl⟩ : ∃ d run, chunk = d :: run := by
        refine List.exists_cons_of_ne_nil ?_
        rintro rfl
        exact nil_not_mem_chunks rest (hmore ▸ List.mem_cons_self)
      have hne : isBreakable c ≠ isBreakable d := by
        rw [hc, hfirst hmore]
        exact hother d run more hmore
      rcases hrest.chunk _ (hmore ▸ List.mem_cons_self) with hgap | hsolid
      · exact .inr hgap
      · have hsolidFirst := hsolid d List.mem_cons_self
        refine .inl ((isGap_or_isSolid_singleton c).resolve_right fun hsolidChunk => hne ?_)
        rw [hsolidFirst, hsolidChunk c List.mem_cons_self]
    · have hboth : isBreakable c = isBreakable d := by
        rw [hc, hfirst hchunks, hsame]
      rw [hchunks] at hrest
      have hlonger : IsGap (d :: run) → IsGap (c :: d :: run) :=
        fun hgap => hgap.cons (hboth.trans (hgap.2 d List.mem_cons_self))
      obtain ⟨hdrun, hmore⟩ := List.forall_mem_cons.mp hrest.chunk
      rw [hjoined]
      refine ⟨List.forall_mem_cons.mpr ⟨?_, hmore⟩, ?_⟩
      · refine hdrun.imp hlonger fun hsolid => ?_
        exact List.forall_mem_cons.mpr ⟨hboth.trans (hsolid d List.mem_cons_self), hsolid⟩
      · obtain ⟨hneighbour, hchain⟩ := List.isChain_cons.mp hrest.neighbours
        exact List.isChain_cons.mpr ⟨fun y hy => (hneighbour y hy).imp_left hlonger, hchain⟩

/-! ## Lines -/

variable {width : Nat} {cs : List (List Char)}

theorem fill_append (width used : Nat) (cs : List (List Char)) :
    (fill width used cs).1 ++ (fill width used cs).2 = cs := by
  induction cs generalizing used with
  | nil => rfl
  | cons chunk rest ih =>
    rw [fill]
    split
    · exact congrArg (chunk :: ·) (ih (used + chunk.length))
    · rfl

theorem length_fill {used : Nat} (h : used ≤ width) (cs : List (List Char)) :
    used + (fill width used cs).1.flatten.length ≤ width := by
  induction cs generalizing used with
  | nil => simpa [fill] using h
  | cons chunk rest ih =>
    rw [fill]
    split
    · rename_i hfit
      have hrest := ih hfit
      simp only [List.flatten_cons, List.length_append]
      omega
    · simpa using h

/-- A line takes chunks from the front, and either they fit or there is only one. -/
theorem takeLine_cases (width : Nat) (cs : List (List Char)) :
    (takeLine width cs).1 ++ (takeLine width cs).2 = cs ∧
      ((takeLine width cs).1.flatten.length ≤ width ∨ ∃ chunk, (takeLine width cs).1 = [chunk]) := by
  have happend := fill_append width 0 cs
  have hlength := length_fill (Nat.zero_le width) cs
  unfold takeLine
  split
  · rename_i chunk rest hfill
    rw [hfill] at happend
    exact ⟨happend, .inr ⟨chunk, rfl⟩⟩
  · exact ⟨happend, .inl (by simpa using hlength)⟩

theorem isSuffix_dropBlankFirst (cs : List (List Char)) : dropBlankFirst cs <:+ cs := by
  cases cs with
  | nil => exact List.suffix_refl []
  | cons chunk rest =>
    rw [dropBlankFirst]
    split
    · exact List.suffix_cons chunk rest
    · exact List.suffix_refl _

theorem notBlank_dropBlankFirst (cs : List (List Char)) : notBlank (dropBlankFirst cs) = notBlank cs := by
  cases cs with
  | nil => rfl
  | cons chunk rest =>
    rw [dropBlankFirst]
    split
    · rename_i hblank
      exact (notBlank_cons_of_blank hblank rest).symm
    · rfl

theorem dropBlankLast_cases (line : List (List Char)) :
    dropBlankLast line = line ∨ ∃ blank, isBlankChunk blank = true ∧ line = dropBlankLast line ++ [blank] := by
  unfold dropBlankLast
  cases hlast : line.getLast? with
  | none => exact .inl rfl
  | some chunk =>
    dsimp only
    split
    · rename_i hblank
      exact .inr ⟨chunk, hblank, (List.dropLast_append_getLast? chunk hlast).symm⟩
    · exact .inl rfl

theorem isPrefix_dropBlankLast (line : List (List Char)) : dropBlankLast line <+: line := by
  rcases dropBlankLast_cases line with hsame | ⟨blank, _, hline⟩
  · exact ⟨[], by rw [hsame, List.append_nil]⟩
  · exact ⟨[blank], hline.symm⟩

theorem notBlank_dropBlankLast (line : List (List Char)) : notBlank (dropBlankLast line) = notBlank line := by
  rcases dropBlankLast_cases line with hsame | ⟨blank, hblank, hline⟩
  · rw [hsame]
  · conv_rhs => rw [hline]
    rw [notBlank_append, notBlank_cons_of_blank hblank]
    exact (List.append_nil _).symm

/-- A line of chunks fits, or it is a single word. -/
def Fits (width : Nat) (line : List (List Char)) : Prop :=
  line.flatten.length ≤ width ∨ ∃ word, line = [word] ∧ isBlankChunk word = false

theorem fits_dropBlankLast {line : List (List Char)}
    (h : line.flatten.length ≤ width ∨ ∃ chunk, line = [chunk]) : Fits width (dropBlankLast line) := by
  rcases h with hfits | ⟨chunk, rfl⟩
  · obtain ⟨dropped, hline⟩ := isPrefix_dropBlankLast line
    rw [← hline, List.flatten_append, List.length_append] at hfits
    exact .inl (Nat.le_trans (Nat.le_add_right _ _) hfits)
  · cases hblank : isBlankChunk chunk with
    | true => exact .inl (by simp [dropBlankLast, hblank])
    | false => exact .inr ⟨chunk, by simp [dropBlankLast, hblank], hblank⟩

/-- What becomes of the chunks that are left: the next line is taken off at the front, and nothing but blank chunks is
lost at its edges. -/
theorem layout_eq (width : Nat) (first : Bool) (h : cs ≠ []) :
    ∃ line rest, line <:+: cs ∧ rest <:+ cs ∧ rest.length < cs.length ∧
      notBlank cs = notBlank line ++ notBlank rest ∧ Fits width line ∧
      layout width first cs =
        if line.isEmpty then layout width first rest else line.flatten :: layout width false rest := by
  let left := if first then cs else dropBlankFirst cs
  obtain ⟨hleft, hkept⟩ : left <:+ cs ∧ notBlank left = notBlank cs := by
    cases first with
    | true => exact ⟨List.suffix_refl cs, rfl⟩
    | false => exact ⟨isSuffix_dropBlankFirst cs, notBlank_dropBlankFirst cs⟩
  obtain ⟨happend, hfits⟩ := takeLine_cases width left
  have hrest : (takeLine width left).2 <:+ left := ⟨_, happend⟩
  have htaken : (takeLine width left).1 <+: left := ⟨_, happend⟩
  refine ⟨dropBlankLast (takeLine width left).1, (takeLine width left).2, ?_, hrest.trans hleft, ?_, ?_,
    fits_dropBlankLast hfits, ?_⟩
  · exact ((isPrefix_dropBlankLast _).trans htaken).isInfix.trans hleft.isInfix
  · by_cases hnone : left = []
    · rw [hnone]
      exact List.length_pos_iff.mpr h
    · exact Nat.lt_of_lt_of_le (length_takeLine_lt width hnone) hleft.length_le
  · rw [notBlank_dropBlankLast, ← notBlank_append, happend, hkept]
  · rw [layout, if_neg (by simpa using h)]

theorem flatMap_words_layout (width : Nat) (first : Bool) (h : Apart cs) :
    (layout width first cs).flatMap words = notBlank cs := by
  induction hlength : cs.length using Nat.strong_induction_on generalizing cs first with
  | _ length ih =>
    by_cases hne : cs = []
    · subst hne
      rw [layout]
      rfl
    · obtain ⟨line, rest, hline, hrest, hshorter, hwords, _, hlayout⟩ := layout_eq width first hne
      have hlater : ∀ first, (layout width first rest).flatMap words = notBlank rest :=
        fun first => ih rest.length (hlength ▸ hshorter) first (h.of_infix hrest.isInfix) rfl
      rw [hlayout, hwords]
      split
      · rename_i hempty
        rw [hlater, List.isEmpty_iff.mp hempty]
        rfl
      · rw [List.flatMap_cons, hlater, (h.of_infix hline).words_flatten]

/-- A line is no longer than the width unless it is a word. -/
theorem length_le_or_mem_of_mem_layout {first : Bool} {line : List Char} (h : line ∈ layout width first cs) :
    line.length ≤ width ∨ line ∈ notBlank cs := by
  induction hlength : cs.length using Nat.strong_induction_on generalizing cs first with
  | _ length ih =>
    by_cases hne : cs = []
    · subst hne
      rw [layout] at h
      exact absurd h List.not_mem_nil
    · obtain ⟨chunks, rest, _, _, hshorter, hwords, hfits, hlayout⟩ := layout_eq width first hne
      have hlater : ∀ {first}, line ∈ layout width first rest → line.length ≤ width ∨ line ∈ notBlank cs := by
        intro first hmem
        refine (ih rest.length (hlength ▸ hshorter) hmem rfl).imp_right fun hword => ?_
        rw [hwords]
        exact List.mem_append_right _ hword
      rw [hlayout] at h
      split at h
      · exact hlater h
      · rcases List.mem_cons.mp h with rfl | hmem
        · refine hfits.imp_right fun ⟨word, hchunks, hword⟩ => ?_
          rw [hwords, hchunks]
          exact List.mem_append_left _ (by simp [notBlank, hword])
        · exact hlater hmem

theorem notBlank_chunks_spaced (paragraph : List Char) : notBlank (chunks (spaced paragraph)) = words paragraph := by
  rw [← (apart_chunks fun _ => isBreakable_of_mem_spaced).words_flatten, flatten_chunks, words_spaced]

theorem trimRight_sublist (cs : List Char) : (trimRight cs).Sublist cs := by
  have hsublist := (List.dropWhile_sublist (l := cs.reverse) isBlank).reverse
  rwa [List.reverse_reverse] at hsublist

/-- Whatever the width and however wide the indent of spaces, the lines of a paragraph hold its words, each once, whole
and in order. If there is a word, every line starts with the indent; and a line is longer than the width, or than the
indent and one character if that is more, only if there is nothing but a word behind its indent. -/
theorem words_wrap (width : Int) (indent paragraph : String) (hindent : ∀ c ∈ indent.toList, c = ' ') :
    ((wrap width indent paragraph).flatMap fun line => words line.toList) = words paragraph.toList ∧
    (words paragraph.toList ≠ [] → ∀ line ∈ wrap width indent paragraph, ∃ rest, line = indent ++ rest) ∧
    ∀ line ∈ wrap width indent paragraph, (line.length : Int) ≤ max width (indent.length + 1) ∨
      ∃ word ∈ words paragraph.toList, line = indent ++ String.ofList word := by
  let available := max width.toNat (indent.length + 1) - indent.length
  let lines := layout available true (chunks (spaced paragraph.toList))
  have hgap : ∀ c ∈ indent.toList, isBreakable c = true := by
    intro c hc
    rw [hindent c hc]
    decide
  have hwords : lines.flatMap words = words paragraph.toList := by
    rw [← notBlank_chunks_spaced]
    exact flatMap_words_layout available true (apart_chunks fun _ => isBreakable_of_mem_spaced)
  have hlength : ∀ line ∈ lines, line.length ≤ available ∨ line ∈ words paragraph.toList := by
    rw [← notBlank_chunks_spaced]
    exact fun line hline => length_le_or_mem_of_mem_layout hline
  by_cases hempty : lines.isEmpty = true
  · have hwrap : wrap width indent paragraph = [String.ofList (trimRight indent.toList)] := if_pos hempty
    have hnone : words paragraph.toList = [] := by
      rw [← hwords, List.isEmpty_iff.mp hempty]
      rfl
    have htrimmed := trimRight_sublist indent.toList
    rw [hwrap, hnone]
    refine ⟨?words, fun hsome => absurd rfl hsome, fun line hline => .inl ?fits⟩
    case words =>
      rw [List.flatMap_singleton, String.toList_ofList]
      simpa using words_gap_append (fun c hc => hgap c (htrimmed.subset hc)) []
    case fits =>
      obtain rfl := List.mem_singleton.mp hline
      have hshort := htrimmed.length_le
      rw [String.length_toList] at hshort
      rw [String.length_ofList]
      omega
  · have hwrap : wrap width indent paragraph = lines.map fun line => indent ++ String.ofList line := if_neg hempty
    rw [hwrap]
    refine ⟨?words, fun _ line hline => ?starts, fun line hline => ?fits⟩
    case words =>
      rw [List.flatMap_map, ← hwords]
      refine List.flatMap_congr fun line _ => ?_
      rw [String.toList_append, String.toList_ofList, words_gap_append hgap]
    case starts =>
      obtain ⟨chars, _, rfl⟩ := List.mem_map.mp hline
      exact ⟨String.ofList chars, rfl⟩
    case fits =>
      obtain ⟨chars, hchars, rfl⟩ := List.mem_map.mp hline
      refine (hlength chars hchars).imp (fun hfits => ?_) fun hword => ⟨chars, hword, rfl⟩
      rw [String.length_append, String.length_ofList]
      omega

def rain : String := "Rain\tneedles \u3000 the unextinguishable lamp."

theorem words_wrap_rain :
    let lines := wrap 12 "  " rain
    (∀ c ∈ "  ".toList, c = ' ') ∧ words rain.toList ≠ [] ∧
    lines = ["  Rain", "  needles \u3000", "  the", "  unextinguishable", "  lamp."] ∧
    (lines.flatMap fun line => words line.toList) = words rain.toList ∧
    (∀ line ∈ lines, ∃ rest, line = "  " ++ rest) ∧
    ∀ line ∈ lines, (line.length : Int) ≤ max 12 (("  ".length : Int) + 1) ∨
      ∃ word ∈ words rain.toList, line = "  " ++ String.ofList word := by
  intro lines
  have hindent : ∀ c ∈ "  ".toList, c = ' ' := by
    intro c hc
    simpa using hc
  have hsome : words rain.toList ≠ [] := by decide +kernel
  obtain ⟨hwords, hstarts, hfits⟩ := words_wrap 12 "  " rain hindent
  exact ⟨hindent, hsome, by decide +kernel, hwords, hstarts hsome, hfits⟩

end Text
end BranchingStory
