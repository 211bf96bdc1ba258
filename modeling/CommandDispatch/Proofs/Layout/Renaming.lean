import CommandDispatch.Layout.Document

/-!
# Other names in a document

Names are parts of a document of their own. To change them is to change these parts, and every way
to put documents together goes along with it.
-/

namespace CommandDispatch.Layout.Doc

variable {ι κ : Type}

/-- The document with other names, and else the same part by part. -/
def rename (f : ι → κ) (d : Doc ι) : Doc κ :=
  List.map (Piece.map f) d

variable (f : ι → κ)

@[simp]
theorem rename_nil : rename f [] = [] :=
  rfl

@[simp]
theorem rename_append (d e : Doc ι) : rename f (d ++ e) = rename f d ++ rename f e :=
  List.map_append

@[simp]
theorem rename_text_cons (s : String) (d : Doc ι) :
    rename f (.text s :: d) = .text s :: rename f d :=
  rfl

@[simp]
theorem rename_gap (g : Gap) : rename f [.gap g] = [.gap g] :=
  rfl

@[simp]
theorem rename_name (i : ι) : rename f (name i) = name (f i) :=
  rfl

@[simp]
theorem rename_space (blank : Nat) : rename f (space blank) = space blank :=
  rfl

@[simp]
theorem rename_joint : rename f joint = joint :=
  rfl

@[simp]
theorem rename_newline (offset : Int) : rename f (newline offset) = newline offset :=
  rfl

@[simp]
theorem rename_join (ds : List (Doc ι)) : rename f (join ds) = join (ds.map (rename f)) :=
  List.map_flatten

@[simp]
theorem rename_block (offset : Int) (style : Style) (d : Doc ι) :
    rename f (block offset style d) = block offset style (rename f d) := by
  simp only [rename, block, List.cons_append, List.map_cons, List.map_append, List.map_nil]
  rfl

@[simp]
theorem rename_lines (ds : List (Doc ι)) : rename f (lines ds) = lines (ds.map (rename f)) := by
  induction ds with
  | nil => rfl
  | cons d ds ih =>
    cases ds with
    | nil => exact rename_append f d _
    | cons e ds =>
      rw [lines, rename_append, rename_append, ih, rename_newline]
      · rfl
      · simp

@[simp]
theorem rename_braces (head : Doc ι) (body : List (Doc ι)) :
    rename f (braces head body) = braces (rename f head) (body.map (rename f)) := by
  cases body <;> simp [braces]

@[simp]
theorem rename_commas (ds : List (Doc ι)) : rename f (commas ds) = commas (ds.map (rename f)) := by
  induction ds with
  | nil => rfl
  | cons d ds ih =>
    cases ds with
    | nil => exact rename_append f d _
    | cons e ds =>
      rw [commas, rename_append, ih]
      · simp [commas]
      · simp

@[simp]
theorem rename_delimited (left right : String) (items : List (Doc ι)) :
    rename f (delimited left right items) = delimited left right (items.map (rename f)) := by
  cases items <;> simp [delimited]

/-- Two changes of names that come to the same agree on every name in the document. -/
theorem eq_of_rename_eq {f g : ι → κ} {d : Doc ι} (h : rename f d = rename g d) {i : ι}
    (hi : Piece.name i ∈ d) : f i = g i := by
  have hPiece := List.map_inj_left.mp h _ hi
  simpa only [Piece.map, Piece.name.injEq] using hPiece

end CommandDispatch.Layout.Doc
