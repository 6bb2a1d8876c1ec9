import Lariska.LegacyView

/-!
# Product keys

The comparison key of a product is its lowercased name, publisher and
architecture and its source, with bars between them. Nothing is escaped, so the
key does not say where the name ends: it says the pieces between the bars, one
after the other. Two products have one key when their texts are different cuts
of the same pieces.
-/

namespace Lariska

namespace SoftwareEntry

variable {L : Libraries} {a b : SoftwareEntry}

/-! ## Pieces -/

/-- The pieces of a text between its bars. -/
def pieces (text : String) : List (List Char) := text.toList.splitOn '|'

/-- The texts of the product, as its key has them. -/
def keyTexts (L : Libraries) (e : SoftwareEntry) : List String :=
  [L.toLowercase e.name, L.toLowercase (e.publisher.getD ""),
    L.toLowercase (e.architecture.getD "")]

/-- The pieces of the name, the publisher and the architecture. -/
def keyPieces (L : Libraries) (e : SoftwareEntry) : List (List Char) :=
  (e.keyTexts L).flatMap pieces

/-- **One product**: the same source, and the same lowercased name, publisher
and architecture, an absent one being empty. -/
def SameProduct (L : Libraries) (a b : SoftwareEntry) : Prop :=
  a.source = b.source ∧ a.keyTexts L = b.keyTexts L

instance : Decidable (SameProduct L a b) := inferInstanceAs (Decidable (_ ∧ _))

/-- **Two cuts of one text**: the same source and the same pieces one after the
other, but not as many of them in each text. -/
def Recut (L : Libraries) (a b : SoftwareEntry) : Prop :=
  a.source = b.source ∧ a.keyPieces L = b.keyPieces L ∧
    (a.keyTexts L).map (fun text => (pieces text).length)
      ≠ (b.keyTexts L).map fun text => (pieces text).length

theorem pieces_append_bar (text rest : String) :
    pieces (text ++ "|" ++ rest) = pieces text ++ pieces rest := by
  unfold pieces
  rw [String.toList_append, String.toList_append]
  show (text.toList ++ ['|'] ++ rest.toList).splitOn '|' = _
  rw [List.append_assoc, List.singleton_append, List.splitOn_append_cons_self]

theorem pieces_inj {text text' : String} : pieces text = pieces text' ↔ text = text' := by
  refine ⟨fun h => ?_, fun h => by rw [h]⟩
  have hjoin := congrArg (List.intercalate ['|']) h
  unfold pieces at hjoin
  rw [List.intercalate_splitOn, List.intercalate_splitOn] at hjoin
  exact String.toList_inj.mp hjoin

/-- The pieces of a key are those of its texts, and its source. -/
theorem pieces_comparisonKey (e : SoftwareEntry) :
    pieces (e.comparisonKey L) = e.keyPieces L ++ [e.source.asStr.toList] := by
  have hsource : pieces e.source.asStr = [e.source.asStr.toList] := by
    cases e.source <;> decide
  unfold comparisonKey
  rw [pieces_append_bar, pieces_append_bar, pieces_append_bar, hsource]
  simp [keyPieces, keyTexts]

/-- **One key is one source and one sequence of pieces.** -/
theorem comparisonKey_eq_iff :
    a.comparisonKey L = b.comparisonKey L ↔ a.source = b.source ∧ a.keyPieces L = b.keyPieces L := by
  rw [← pieces_inj, pieces_comparisonKey, pieces_comparisonKey]
  constructor
  · intro h
    obtain ⟨hpieces, hsource⟩ := List.append_inj' h rfl
    exact ⟨SoftwareSource.asStr_inj (String.toList_inj.mp (List.singleton_inj.mp hsource)), hpieces⟩
  · rintro ⟨hsource, hpieces⟩
    rw [hsource, hpieces]

/-- The pieces give the texts back, where it is known how many each has. -/
theorem texts_of_pieces {xs ys : List String} (hflat : xs.flatMap pieces = ys.flatMap pieces)
    (hlength : xs.map (fun text => (pieces text).length)
      = ys.map fun text => (pieces text).length) : xs = ys := by
  induction xs generalizing ys with
  | nil =>
    cases ys with
    | nil => rfl
    | cons y ys => simp at hlength
  | cons x xs ih =>
    cases ys with
    | nil => simp at hlength
    | cons y ys =>
      rw [List.map_cons, List.map_cons, List.cons_eq_cons] at hlength
      rw [List.flatMap_cons, List.flatMap_cons] at hflat
      obtain ⟨hhead, htail⟩ := List.append_inj hflat hlength.1
      rw [pieces_inj.mp hhead, ih htail hlength.2]

/-- **A key names one product, except for two cuts of one text.** Whatever the
names and publishers contain, two entries have the same key just when they are
the same product, if and only if they are not different cuts of the same
pieces. -/
theorem comparisonKey_names_product (L : Libraries) (a b : SoftwareEntry) :
    (a.comparisonKey L = b.comparisonKey L ↔ SameProduct L a b) ↔ ¬ Recut L a b := by
  rw [comparisonKey_eq_iff]
  have hsame : SameProduct L a b → a.keyPieces L = b.keyPieces L := fun h => by
    unfold keyPieces
    rw [h.2]
  constructor
  · rintro hiff ⟨hsource, hpieces, hcut⟩
    have htexts := (hiff.mp ⟨hsource, hpieces⟩).2
    exact hcut (by rw [htexts])
  · intro hcut
    constructor
    · rintro ⟨hsource, hpieces⟩
      refine ⟨hsource, texts_of_pieces hpieces ?_⟩
      by_contra hlength
      exact hcut ⟨hsource, hpieces, hlength⟩
    · intro h
      exact ⟨h.1, hsame h⟩

end SoftwareEntry

namespace Sample

/-- A product of a publisher, from the registry. -/
def product (name publisher : String) : SoftwareEntry :=
  { package name "1.0" with
    publisher := some publisher
    architecture := some "x86_64"
    source := .winreg
    packageId := none }

/-- A bar in the name and one in the publisher give one key to two products. -/
theorem bar_moves : ¬ ∀ (L : Libraries) (a b : SoftwareEntry), a.normalize = a → b.normalize = b →
    (a.comparisonKey L = b.comparisonKey L ↔ SoftwareEntry.SameProduct L a b) := by
  intro h
  have hkeys := h (libraries [] []) (product "Viewer|Pro" "Acme") (product "Viewer" "Pro|Acme")
    (by decide +kernel) (by decide +kernel)
  revert hkeys
  decide +kernel

/-- One of the two is left out of a snapshot of schema version 1. -/
example : (InventorySnapshot.new (libraries [] []) collection
    [product "Viewer|Pro" "Acme", product "Viewer" "Pro|Acme"]).software.length = 1 := by
  decide +kernel

end Sample

end Lariska
