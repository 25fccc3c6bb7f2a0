import LogQuery.Proofs.Slices

/-!
The slices of the tokens cover a text up to white space. They follow one another, so the
places of the tokens do too.
-/

namespace LogQuery

/-! ## Order of places -/

namespace Position

def Precedes (earlier later : Position) : Prop :=
  earlier.line < later.line ∨ earlier.line = later.line ∧ earlier.column < later.column

instance (earlier later : Position) : Decidable (earlier.Precedes later) :=
  inferInstanceAs (Decidable (_ ∨ _))

theorem Precedes.trans {first second third : Position} (before : first.Precedes second)
    (after : second.Precedes third) : first.Precedes third := by
  simp only [Precedes] at *
  omega

theorem precedes_next (position : Position) (c : Char) :
    position.Precedes (position.next c) := by
  by_cases feed : c = '\n'
  · exact .inl (by simp [next, feed])
  · exact .inr (by simp [next, feed])

theorem precedes_advance (position : Position) {text : List Char}
    (nonempty : text ≠ []) : position.Precedes (position.advance text) := by
  induction text generalizing position with
  | nil => exact absurd rfl nonempty
  | cons c text induction =>
      change position.Precedes ((position.next c).advance text)
      cases text with
      | nil => exact precedes_next position c
      | cons d text =>
          exact (precedes_next position c).trans (induction _ (List.cons_ne_nil d text))

theorem behind_precedes (before : List Char) {text : List Char} (nonempty : text ≠ []) :
    (behind before).Precedes (behind (before ++ text)) := by
  rw [← advance_behind]
  exact precedes_advance _ nonempty

end Position

/-! ## Tilings -/

/-- A text, behind the characters `before`, that is made of white space and of one slice
for each of some tokens, in their order. Every token is written with its slice and
stands where the slice begins. -/
inductive Tiles : List Char → List Char → List Token → Prop
  | done {before : List Char} : Tiles before [] []
  | space {before text : List Char} {c : Char} {tokens : List Token}
      (isSpace : Text.isSpace c = true) (tail : Tiles (before ++ [c]) text tokens) :
      Tiles before (c :: text) tokens
  | slice {before source text : List Char} {token : Token} {tokens : List Token}
      (nonempty : source ≠ []) (written : token.WrittenAs source)
      (place : token.position = .behind before)
      (tail : Tiles (before ++ source) text tokens) :
      Tiles before (source ++ text) (token :: tokens)

namespace Tiles

variable {before text : List Char} {tokens : List Token}

theorem place_of_mem (tiles : Tiles before text tokens) :
    ∀ token ∈ tokens, ∃ gap, token.position = .behind (before ++ gap) := by
  induction tiles with
  | done => exact List.forall_mem_nil _
  | @space _ _ c _ isSpace tail induction =>
      intro token member
      rcases induction token member with ⟨gap, place⟩
      exact ⟨[c] ++ gap, by rw [place, List.append_assoc]⟩
  | @slice _ source _ _ _ nonempty written place tail induction =>
      rw [List.forall_mem_cons]
      refine ⟨⟨[], by rw [place, List.append_nil]⟩, ?_⟩
      intro token member
      rcases induction token member with ⟨gap, later⟩
      exact ⟨source ++ gap, by rw [later, List.append_assoc]⟩

theorem pairwise_precedes (tiles : Tiles before text tokens) :
    tokens.Pairwise fun earlier later => earlier.position.Precedes later.position := by
  induction tiles with
  | done => exact .nil
  | space isSpace tail induction => exact induction
  | @slice before source _ _ _ nonempty written place tail induction =>
      refine .cons ?_ induction
      intro later member
      rcases tail.place_of_mem later member with ⟨gap, laterPlace⟩
      rw [place, laterPlace, List.append_assoc]
      exact Position.behind_precedes before
        (List.append_ne_nil_of_left_ne_nil nonempty gap)

end Tiles

theorem Run.tiles {afterOperator : Bool} {before text : List Char}
    {placed : List (Position × Lexeme)} (run : Run afterOperator before text placed) :
    Tiles before text
      (placed.map fun (position, lexeme) => lexeme.toToken position) := by
  induction run with
  | done => exact .done
  | space isSpace tail induction => exact .space isSpace induction
  | @read delimited afterOperator before first word rest lexeme placed visible isRead
      source tail induction =>
      have written := (Lexeme.outcome_of_read visible isRead).written (.behind before)
      rw [source] at written
      exact .slice (List.cons_ne_nil first word) written rfl induction

/-- Nothing of a text is lost but white space, and the places of its tokens are those of
their slices. -/
theorem Scan.tiles_ofText (text : String) :
    Tiles [] text.toList (ofText text).tokens ∧
      (ofText text).tokens.Pairwise fun earlier later =>
        earlier.position.Precedes later.position := by
  have tiles : Tiles [] text.toList (ofText text).tokens :=
    (run_lexemes .start true false text.toList [] rfl).tiles
  exact ⟨tiles, tiles.pairwise_precedes⟩

end LogQuery
