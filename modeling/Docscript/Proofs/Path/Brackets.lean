import Docscript.Proofs.Context.Lookup

set_option autoImplicit false

namespace Docscript.Path

/-- Texts in which every bracket is closed, and no bracket is closed that is not open. -/
inductive Balanced : List Char → Prop where
  | nil : Balanced []
  | plain {c : Char} {rest : List Char} (unopened : c ≠ '[') (unclosed : c ≠ ']')
      (balanced : Balanced rest) : Balanced (c :: rest)
  | nested {inner rest : List Char} (inside : Balanced inner) (after : Balanced rest) :
      Balanced ('[' :: (inner ++ ']' :: rest))

/-- How many brackets are open at the end of a text, of those open before it and its own. A bracket
that closes nothing is an ordinary character. -/
def openAtEnd (before : Nat) : List Char → Nat
  | [] => before
  | c :: rest =>
    if c = '[' then openAtEnd (before + 1) rest
    else if c = ']' then openAtEnd (before - 1) rest
    else openAtEnd before rest

variable {text rest path inner : List Char}

theorem Balanced.append (front : Balanced text) (back : Balanced rest) :
    Balanced (text ++ rest) := by
  induction front with
  | nil => exact back
  | plain unopened unclosed _ ih => exact .plain unopened unclosed ih
  | @nested inner after inside _ _ ih =>
    rw [List.cons_append, List.append_assoc, List.cons_append]
    exact .nested inside ih

theorem balanced_of_not_mem (unopened : '[' ∉ text) (unclosed : ']' ∉ text) : Balanced text := by
  induction text with
  | nil => exact .nil
  | cons c rest ih =>
    rw [List.mem_cons, not_or] at unopened unclosed
    exact .plain (Ne.symm unopened.1) (Ne.symm unclosed.1) (ih unopened.2 unclosed.2)

section Steps

variable {c : Char} (depth : Nat) (pending : List Char)

theorem segmentsOutside_dot (rest : List Char) :
    segmentsOutside pending ('.' :: rest) =
      (segmentsOutside [] rest).map (collected pending ++ ·) := by
  rw [segmentsOutside, if_pos rfl]

theorem segmentsOutside_open (rest : List Char) :
    segmentsOutside pending ('[' :: rest) =
      (segmentsInside 0 [] rest).map (collected pending ++ ·) := by
  rw [segmentsOutside, if_neg (by decide), if_pos rfl]

theorem segmentsOutside_letter (undotted : c ≠ '.') (unopened : c ≠ '[') (rest : List Char) :
    segmentsOutside pending (c :: rest) = segmentsOutside (c :: pending) rest := by
  rw [segmentsOutside, if_neg undotted, if_neg unopened]

theorem segmentsInside_open (rest : List Char) :
    segmentsInside depth pending ('[' :: rest) =
      segmentsInside (depth + 1) ('[' :: pending) rest := by
  rw [segmentsInside.eq_def]
  simp only [if_pos]

theorem segmentsInside_close (rest : List Char) :
    segmentsInside 0 pending (']' :: rest) =
      (segmentsOutside [] rest).map (.bracket pending.reverse :: ·) := by
  rw [segmentsInside.eq_def]
  simp

theorem segmentsInside_close_nested (rest : List Char) :
    segmentsInside (depth + 1) pending (']' :: rest) =
      segmentsInside depth (']' :: pending) rest := by
  rw [segmentsInside.eq_def]
  simp

theorem segmentsInside_letter (unopened : c ≠ '[') (unclosed : c ≠ ']') (rest : List Char) :
    segmentsInside depth pending (c :: rest) = segmentsInside depth (c :: pending) rest := by
  rw [segmentsInside.eq_def]
  simp only [if_neg unopened, if_neg unclosed]

end Steps

/-- Induction along the scan of a text, outside and inside brackets, by what the next character does
there. -/
theorem scan_induction (outside : List Char → List Char → Prop)
    (inside : Nat → List Char → List Char → Prop)
    (finished : ∀ pending, outside pending [])
    (separated : ∀ pending rest, outside [] rest → outside pending ('.' :: rest))
    (opened : ∀ pending rest, inside 0 [] rest → outside pending ('[' :: rest))
    (letter : ∀ c pending rest, c ≠ '.' → c ≠ '[' → outside (c :: pending) rest →
      outside pending (c :: rest))
    (unfinished : ∀ depth pending, inside depth pending [])
    (entered : ∀ depth pending rest, inside (depth + 1) ('[' :: pending) rest →
      inside depth pending ('[' :: rest))
    (closed : ∀ pending rest, outside [] rest → inside 0 pending (']' :: rest))
    (left : ∀ depth pending rest, inside depth (']' :: pending) rest →
      inside (depth + 1) pending (']' :: rest))
    (content : ∀ c depth pending rest, c ≠ '[' → c ≠ ']' → inside depth (c :: pending) rest →
      inside depth pending (c :: rest))
    (text : List Char) :
    (∀ pending, outside pending text) ∧ ∀ depth pending, inside depth pending text := by
  induction text with
  | nil => exact ⟨finished, unfinished⟩
  | cons c rest ih =>
    obtain ⟨without, within⟩ := ih
    constructor
    · intro pending
      by_cases dot : c = '.'
      · exact dot ▸ separated pending rest (without [])
      · by_cases opens : c = '['
        · exact opens ▸ opened pending rest (within 0 [])
        · exact letter c pending rest dot opens (without (c :: pending))
    · intro depth pending
      by_cases opens : c = '['
      · exact opens ▸ entered depth pending rest (within (depth + 1) ('[' :: pending))
      · by_cases closes : c = ']'
        · subst closes
          cases depth with
          | zero => exact closed pending rest (without [])
          | succ depth => exact left depth pending rest (within depth (']' :: pending))
        · exact content c depth pending rest opens closes (within depth (c :: pending))

theorem segmentsInside_append_of_balanced (balanced : Balanced text) (depth : Nat)
    (pending rest : List Char) :
    segmentsInside depth pending (text ++ rest) =
      segmentsInside depth (text.reverse ++ pending) rest := by
  induction balanced generalizing depth pending rest with
  | nil => rfl
  | @plain c text unopened unclosed _ ih =>
    rw [List.cons_append, segmentsInside_letter depth pending unopened unclosed, ih,
      List.reverse_cons, List.append_assoc, List.singleton_append]
  | @nested inner after _ _ within beyond =>
    rw [List.cons_append, List.append_assoc, List.cons_append, segmentsInside_open, within,
      segmentsInside_close_nested, beyond]
    simp

/-- The scan comes to no end exactly if some bracket is open at the end of the text. -/
theorem scan_eq_none_iff (text : List Char) :
    (∀ pending, segmentsOutside pending text = none ↔ openAtEnd 0 text ≠ 0) ∧
      ∀ depth pending, segmentsInside depth pending text = none ↔
        openAtEnd (depth + 1) text ≠ 0 := by
  refine scan_induction
    (fun pending text => segmentsOutside pending text = none ↔ openAtEnd 0 text ≠ 0)
    (fun depth pending text => segmentsInside depth pending text = none ↔
      openAtEnd (depth + 1) text ≠ 0)
    ?_ ?_ ?_ ?_ ?_ ?_ ?_ ?_ ?_ text
  · intro pending
    simp [segmentsOutside, openAtEnd]
  · intro pending rest ih
    rw [segmentsOutside_dot, Option.map_eq_none_iff, ih]
    rfl
  · intro pending rest ih
    rw [segmentsOutside_open, Option.map_eq_none_iff, ih]
    rfl
  · intro c pending rest dot opens ih
    rw [segmentsOutside_letter pending dot opens, ih, openAtEnd, if_neg opens]
    split <;> rfl
  · intro depth pending
    simp [segmentsInside, openAtEnd]
  · intro depth pending rest ih
    rw [segmentsInside_open, ih]
    rfl
  · intro pending rest ih
    rw [segmentsInside_close, Option.map_eq_none_iff, ih]
    rfl
  · intro depth pending rest ih
    rw [segmentsInside_close_nested, ih]
    rfl
  · intro c depth pending rest opens closes ih
    rw [segmentsInside_letter depth pending opens closes, ih, openAtEnd, if_neg opens,
      if_neg closes]

theorem segments_eq_none_iff : segments path = none ↔ openAtEnd 0 path ≠ 0 :=
  (scan_eq_none_iff path).1 []

/-- Texts that start a new segment and close no bracket that is open before them. -/
structure Resumes (text : List Char) : Prop where
  starts : text.head? = some '.' ∨ text.head? = some '['
  unclosing : ∀ depth pending, segmentsInside depth pending text = none

theorem segmentsOutside_of_resumes (resumes : Resumes rest) (pending : List Char) :
    segmentsOutside pending rest = (segmentsOutside [] rest).map (collected pending ++ ·) := by
  obtain ⟨c, tail, rfl⟩ : ∃ c tail, rest = c :: tail := by
    cases rest with
    | nil => rcases resumes.starts with first | first <;> cases first
    | cons c tail => exact ⟨c, tail, rfl⟩
  have nothing : collected [] = [] := rfl
  rcases resumes.starts with first | first
  · obtain rfl : c = '.' := Option.some.inj first
    rw [segmentsOutside_dot, segmentsOutside_dot, Option.map_map, nothing]
    rfl
  · obtain rfl : c = '[' := Option.some.inj first
    rw [segmentsOutside_open, segmentsOutside_open, Option.map_map, nothing]
    rfl

/-- The segments of a text that goes on are those of the text and those of what follows. -/
theorem scan_append (resumes : Resumes rest) (text : List Char) :
    (∀ pending, segmentsOutside pending (text ++ rest) =
      (segmentsOutside pending text).bind fun front =>
        (segmentsOutside [] rest).map (front ++ ·)) ∧
    ∀ depth pending, segmentsInside depth pending (text ++ rest) =
      (segmentsInside depth pending text).bind fun front =>
        (segmentsOutside [] rest).map (front ++ ·) := by
  refine scan_induction
    (fun pending text => segmentsOutside pending (text ++ rest) =
      (segmentsOutside pending text).bind fun front => (segmentsOutside [] rest).map (front ++ ·))
    (fun depth pending text => segmentsInside depth pending (text ++ rest) =
      (segmentsInside depth pending text).bind fun front =>
        (segmentsOutside [] rest).map (front ++ ·))
    ?_ ?_ ?_ ?_ ?_ ?_ ?_ ?_ ?_ text
  · intro pending
    rw [List.nil_append, segmentsOutside_of_resumes resumes, segmentsOutside, Option.bind_some]
  · intro pending text ih
    rw [List.cons_append, segmentsOutside_dot, segmentsOutside_dot, ih, Option.map_bind,
      Option.bind_map]
    simp [Function.comp_def]
  · intro pending text ih
    rw [List.cons_append, segmentsOutside_open, segmentsOutside_open, ih, Option.map_bind,
      Option.bind_map]
    simp [Function.comp_def]
  · intro c pending text dot opens ih
    rw [List.cons_append, segmentsOutside_letter pending dot opens,
      segmentsOutside_letter pending dot opens, ih]
  · intro depth pending
    rw [List.nil_append, resumes.unclosing, segmentsInside, Option.bind_none]
  · intro depth pending text ih
    rw [List.cons_append, segmentsInside_open, segmentsInside_open, ih]
  · intro pending text ih
    rw [List.cons_append, segmentsInside_close, segmentsInside_close, ih, Option.map_bind,
      Option.bind_map]
    simp [Function.comp_def]
  · intro depth pending text ih
    rw [List.cons_append, segmentsInside_close_nested, segmentsInside_close_nested, ih]
  · intro c depth pending text opens closes ih
    rw [List.cons_append, segmentsInside_letter depth pending opens closes,
      segmentsInside_letter depth pending opens closes, ih]

theorem segments_append (resumes : Resumes rest) (path : List Char) :
    segments (path ++ rest) =
      (segments path).bind fun front => (segments rest).map (front ++ ·) :=
  (scan_append resumes path).1 []

theorem segmentsInside_of_balanced (balanced : Balanced text) (depth : Nat)
    (pending : List Char) : segmentsInside depth pending text = none := by
  have scanned := segmentsInside_append_of_balanced balanced depth pending []
  rw [List.append_nil] at scanned
  rw [scanned, segmentsInside]

theorem resumes_dot (unopened : '[' ∉ text) (unclosed : ']' ∉ text) : Resumes ('.' :: text) := by
  refine ⟨.inl rfl, segmentsInside_of_balanced ?_⟩
  exact .plain (by decide) (by decide) (balanced_of_not_mem unopened unclosed)

theorem resumes_bracket (balanced : Balanced text) : Resumes ('[' :: (text ++ [']'])) :=
  ⟨.inr rfl, segmentsInside_of_balanced (.nested balanced .nil)⟩

theorem segments_word (nonempty : text ≠ []) (undotted : '.' ∉ text) (unopened : '[' ∉ text) :
    segments text = some [.name text] := by
  have whole : Text.dottedParts text = [text] := by
    rw [Text.dottedParts, List.splitOn_eq_singleton undotted]
    simp [nonempty]
  rw [segments_of_not_mem unopened, whole, List.map_singleton]

theorem segments_dot (nonempty : text ≠ []) (undotted : '.' ∉ text) (unopened : '[' ∉ text) :
    segments ('.' :: text) = some [.name text] := by
  rw [segments, segmentsOutside_dot, ← segments, segments_word nonempty undotted unopened,
    Option.map_some]
  rfl

theorem segments_bracket (balanced : Balanced text) :
    segments ('[' :: (text ++ [']'])) = some [.bracket text] := by
  rw [segments, segmentsOutside_open, segmentsInside_append_of_balanced balanced,
    segmentsInside_close, segmentsOutside]
  simp [collected]

theorem scan_ne_some_nil (text : List Char) :
    (∀ pending, segmentsOutside pending text = some [] → pending = [] ∧ ∀ c ∈ text, c = '.') ∧
      ∀ depth pending, segmentsInside depth pending text ≠ some [] := by
  have collected_nil (pending : List Char) : collected pending = [] ↔ pending = [] := by
    cases pending <;> simp [collected]
  refine scan_induction
    (fun pending text => segmentsOutside pending text = some [] →
      pending = [] ∧ ∀ c ∈ text, c = '.')
    (fun depth pending text => segmentsInside depth pending text ≠ some [])
    ?_ ?_ ?_ ?_ ?_ ?_ ?_ ?_ ?_ text
  · intro pending none
    rw [segmentsOutside, Option.some.injEq, collected_nil] at none
    exact ⟨none, List.forall_mem_nil _⟩
  · intro pending rest ih none
    rw [segmentsOutside_dot, Option.map_eq_some_iff] at none
    obtain ⟨steps, scanned, empty⟩ := none
    obtain ⟨before, rfl⟩ := List.append_eq_nil_iff.mp empty
    exact ⟨(collected_nil pending).mp before, List.forall_mem_cons.mpr ⟨rfl, (ih scanned).2⟩⟩
  · intro pending rest ih none
    rw [segmentsOutside_open, Option.map_eq_some_iff] at none
    obtain ⟨steps, scanned, empty⟩ := none
    obtain ⟨-, rfl⟩ := List.append_eq_nil_iff.mp empty
    exact absurd scanned ih
  · intro c pending rest dot opens ih none
    rw [segmentsOutside_letter pending dot opens] at none
    exact absurd (ih none).1 (List.cons_ne_nil c pending)
  · intro depth pending
    simp [segmentsInside]
  · intro depth pending rest ih
    rwa [segmentsInside_open]
  · intro pending rest _
    rw [segmentsInside_close]
    simp
  · intro depth pending rest ih
    rwa [segmentsInside_close_nested]
  · intro c depth pending rest opens closes ih
    rwa [segmentsInside_letter depth pending opens closes]

/-- Some character other than a dot makes a segment, unless a bracket is left open. -/
theorem segments_ne_some_nil (letter : ∃ c ∈ path, c ≠ '.') : segments path ≠ some [] := by
  intro none
  obtain ⟨c, member, undotted⟩ := letter
  exact undotted (((scan_ne_some_nil path).1 [] none).2 c member)

theorem not_mem_collected (pending inner : List Char) :
    Segment.bracket inner ∉ collected pending := by
  rw [collected]
  split <;> simp

/-- The content of a bracket is shorter than what is scanned. -/
theorem length_lt_of_mem_scan (inner text : List Char) :
    (∀ pending, ∀ steps ∈ segmentsOutside pending text, Segment.bracket inner ∈ steps →
      inner.length < text.length) ∧
    ∀ depth pending, ∀ steps ∈ segmentsInside depth pending text, Segment.bracket inner ∈ steps →
      inner.length < pending.length + text.length := by
  refine scan_induction
    (fun pending text => ∀ steps ∈ segmentsOutside pending text,
      Segment.bracket inner ∈ steps → inner.length < text.length)
    (fun depth pending text => ∀ steps ∈ segmentsInside depth pending text,
      Segment.bracket inner ∈ steps → inner.length < pending.length + text.length)
    ?_ ?_ ?_ ?_ ?_ ?_ ?_ ?_ ?_ text
  · intro pending steps scanned member
    rw [segmentsOutside, Option.mem_some_iff] at scanned
    exact absurd (scanned ▸ member) (not_mem_collected pending inner)
  · intro pending rest ih steps scanned member
    rw [segmentsOutside_dot, Option.mem_def, Option.map_eq_some_iff] at scanned
    obtain ⟨later, found, rfl⟩ := scanned
    have late := (List.mem_append.mp member).resolve_left (not_mem_collected pending inner)
    exact Nat.lt_succ_of_lt (ih later found late)
  · intro pending rest ih steps scanned member
    rw [segmentsOutside_open, Option.mem_def, Option.map_eq_some_iff] at scanned
    obtain ⟨later, found, rfl⟩ := scanned
    have late := (List.mem_append.mp member).resolve_left (not_mem_collected pending inner)
    have shorter := ih later found late
    rw [List.length_nil] at shorter
    rw [List.length_cons]
    omega
  · intro c pending rest dot opens ih steps scanned member
    rw [segmentsOutside_letter pending dot opens] at scanned
    exact Nat.lt_succ_of_lt (ih steps scanned member)
  · intro depth pending steps scanned
    rw [segmentsInside] at scanned
    cases scanned
  · intro depth pending rest ih steps scanned member
    rw [segmentsInside_open] at scanned
    have shorter := ih steps scanned member
    rw [List.length_cons] at shorter ⊢
    omega
  · intro pending rest ih steps scanned member
    rw [segmentsInside_close, Option.mem_def, Option.map_eq_some_iff] at scanned
    obtain ⟨later, found, rfl⟩ := scanned
    rw [List.length_cons]
    rcases List.mem_cons.mp member with own | late
    · obtain rfl := Segment.bracket.inj own
      rw [List.length_reverse]
      omega
    · have shorter := ih later found late
      omega
  · intro depth pending rest ih steps scanned member
    rw [segmentsInside_close_nested] at scanned
    have shorter := ih steps scanned member
    rw [List.length_cons] at shorter ⊢
    omega
  · intro c depth pending rest opens closes ih steps scanned member
    rw [segmentsInside_letter depth pending opens closes] at scanned
    have shorter := ih steps scanned member
    rw [List.length_cons] at shorter ⊢
    omega

theorem length_lt_of_mem_segments {steps : List Segment} (segmented : segments path = some steps)
    (member : Segment.bracket inner ∈ steps) : inner.length < path.length :=
  (length_lt_of_mem_scan inner path).1 [] steps segmented member

end Docscript.Path
