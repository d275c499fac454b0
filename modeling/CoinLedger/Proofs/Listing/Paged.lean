import CoinLedger.Proofs.Listing.Page
import Mathlib.Data.List.Forall2
import Mathlib.Data.List.Nodup

/-!
# Listings page by page

A listing is asked for one page after the other.  Its pages show some items when there is an error
for a listing without items, when page zero and the pages behind the last one are errors, and when
every other page tells how many items and pages there are and all pages together show the items,
each once and in order (`Paged`).  A listing that cuts its pages from the items by their windows
does that (`paged_of_pageAnswer`), and so does one whose pages show in place of each item something
that is related to it (`Paged.exists_related`).  Each of distinct items is shown on exactly one page
(`Paged.existsUnique_page`).
-/

set_option autoImplicit false

namespace CoinLedger

variable {α : Type}

/-- What a page of a listing tells. -/
structure PageFace (α : Type) where
  /-- How many items the listing has. -/
  count : Nat
  /-- How many pages the listing has. -/
  pages : Nat
  /-- The number of the page. -/
  page : Nat
  items : List α

/-- The pages that are asked for show the items, each once and in order, and there are no other
pages; a listing without items is an error. -/
structure Paged (ask : Nat → Answer (PageFace α)) (nothing : QueryError) (pageSize : Nat)
    (items : List α) : Prop where
  nothing_iff : ∀ number, ask number = .error nothing ↔ items = []
  zero : items ≠ [] → ask 0 = .error pageNumberTooSmall
  beyond : items ≠ [] → ∀ number, pageCount items.length pageSize < number →
    ask number = .error (.pageOutOfRange number (pageCount items.length pageSize))
  pages : ∃ shown : List (PageFace α),
    List.Forall₂
      (fun number face => ask number = .ok face ∧ face.count = items.length ∧
        face.pages = pageCount items.length pageSize ∧ face.page = number)
      (List.range' 1 (pageCount items.length pageSize)) shown ∧
    shown.flatMap (·.items) = items

/-- Items that stand oldest first, in this or the other order. -/
def oriented (ascending : Bool) (items : List α) : List α :=
  if ascending then items else items.reverse

@[simp] theorem length_oriented (ascending : Bool) (items : List α) :
    (oriented ascending items).length = items.length := by
  cases ascending <;> simp [oriented]

theorem oriented_perm (ascending : Bool) (items : List α) :
    (oriented ascending items).Perm items := by
  cases ascending with
  | true => exact .refl items
  | false => exact List.reverse_perm items

theorem mem_oriented {ascending : Bool} {items : List α} {item : α} :
    item ∈ oriented ascending items ↔ item ∈ items :=
  (oriented_perm ascending items).mem_iff

theorem oriented_map {β : Type} (change : α → β) (ascending : Bool) (items : List α) :
    oriented ascending (items.map change) = (oriented ascending items).map change := by
  cases ascending <;> simp [oriented]

/-- Turning both lists round keeps one a part of the other. -/
theorem sublist_oriented_iff {ascending : Bool} {part items : List α} :
    part.Sublist (oriented ascending items) ↔ (oriented ascending part).Sublist items := by
  cases ascending with
  | true => exact Iff.rfl
  | false => exact List.sublist_reverse_iff

/-- The page of some items that its window cuts out. -/
def pageFace (pageSize : Nat) (items : List α) (number : Nat) : PageFace α where
  count := items.length
  pages := pageCount items.length pageSize
  page := number
  items := (pageWindow items.length number pageSize).select items

/-- The answer of a listing of some items to a page number. -/
def pageAnswer (nothing : QueryError) (pageSize : Nat) (items : List α) (number : Nat) :
    Answer (PageFace α) :=
  if items.length = 0 then .error nothing
  else (checkPageNumber number (pageCount items.length pageSize)).map fun _ =>
    pageFace pageSize items number

theorem pageCount_eq_zero {pageSize : Nat} (positive : 0 < pageSize) : pageCount 0 pageSize = 0 :=
  Nat.div_eq_of_lt (by omega)

section PageAnswer

variable {nothing : QueryError} {pageSize : Nat} {items : List α}

theorem pageAnswer_of_ne (nonempty : items ≠ []) (number : Nat) :
    pageAnswer nothing pageSize items number =
      (checkPageNumber number (pageCount items.length pageSize)).map fun _ =>
        pageFace pageSize items number :=
  if_neg fun empty => nonempty (List.length_eq_zero_iff.mp empty)

/-- Only a listing without items answers with its error for that, unless this is one about page
numbers. -/
theorem pageAnswer_eq_nothing_iff (notSmall : nothing ≠ pageNumberTooSmall)
    (notBeyond : ∀ number pages, nothing ≠ .pageOutOfRange number pages) (number : Nat) :
    pageAnswer nothing pageSize items number = .error nothing ↔ items = [] := by
  constructor
  · intro fails
    by_contra nonempty
    rw [pageAnswer_of_ne nonempty] at fails
    cases checked : checkPageNumber number (pageCount items.length pageSize) with
    | ok _ =>
        rw [checked] at fails
        cases fails
    | error error =>
        rw [checked] at fails
        cases fails
        rcases checkPageNumber_error checked with small | beyond
        · exact notSmall small
        · exact notBeyond _ _ beyond
  · rintro rfl
    rfl

theorem pageAnswer_eq_ok (positive : 0 < pageSize) {number : Nat} (least : 1 ≤ number)
    (most : number ≤ pageCount items.length pageSize) :
    pageAnswer nothing pageSize items number = .ok (pageFace pageSize items number) := by
  have nonempty : items ≠ [] := by
    rintro rfl
    rw [List.length_nil, pageCount_eq_zero positive] at most
    omega
  rw [pageAnswer_of_ne nonempty, checkPageNumber_eq_ok least most]
  rfl

/-- **A listing that cuts its pages from some items shows these items**, when its error for no items
is none about page numbers. -/
theorem paged_of_pageAnswer {ask : Nat → Answer (PageFace α)} (positive : 0 < pageSize)
    (notSmall : nothing ≠ pageNumberTooSmall)
    (notBeyond : ∀ number pages, nothing ≠ .pageOutOfRange number pages)
    (cuts : ∀ number, ask number = pageAnswer nothing pageSize items number) :
    Paged ask nothing pageSize items := by
  obtain rfl : ask = pageAnswer nothing pageSize items := funext cuts
  refine ⟨pageAnswer_eq_nothing_iff notSmall notBeyond, ?_, ?_,
    (List.range' 1 (pageCount items.length pageSize)).map (pageFace pageSize items), ?_, ?_⟩
  · intro nonempty
    rw [pageAnswer_of_ne nonempty]
    rfl
  · intro nonempty number beyond
    rw [pageAnswer_of_ne nonempty, checkPageNumber_beyond beyond]
    rfl
  · rw [List.forall₂_map_right_iff, List.forall₂_same]
    intro number member
    obtain ⟨least, most⟩ := List.mem_range'_1.mp member
    exact ⟨pageAnswer_eq_ok positive least (by omega), rfl, rfl, rfl⟩
  · rw [List.flatMap_map]
    exact flatMap_pages items positive (Nat.le_refl _)

end PageAnswer

/-! ## Where an item is shown -/

namespace Paged

variable {ask : Nat → Answer (PageFace α)} {nothing : QueryError} {pageSize : Nat} {items : List α}

/-- The pages that are answered are those that show the items, numbered from one on. -/
theorem exists_shown (paged : Paged ask nothing pageSize items) :
    ∃ shown : List (PageFace α), shown.flatMap (·.items) = items ∧
      ∀ number face, ask number = .ok face ↔ 1 ≤ number ∧ shown[number - 1]? = some face := by
  obtain ⟨shown, faces, all⟩ := paged.pages
  obtain ⟨length, each⟩ := List.forall₂_iff_get.mp faces
  rw [List.length_range'] at length
  have answered : ∀ number (inside : number < shown.length),
      ask (number + 1) = .ok shown[number] := by
    intro number inside
    have face := (each number (by simpa [length] using inside) inside).1
    simpa [Nat.add_comm 1] using face
  refine ⟨shown, all, fun number face => ⟨fun asked => ?_, fun ⟨least, listed⟩ => ?_⟩⟩
  · have nonempty : items ≠ [] := by
      intro empty
      rw [(paged.nothing_iff number).mpr empty] at asked
      cases asked
    cases number with
    | zero =>
        rw [paged.zero nonempty] at asked
        cases asked
    | succ number =>
        have inside : number < shown.length := by
          by_contra beyond
          rw [paged.beyond nonempty _ (by omega)] at asked
          cases asked
        rw [answered number inside] at asked
        cases asked
        exact ⟨Nat.le_add_left 1 number, List.getElem?_eq_getElem inside⟩
  · obtain ⟨inside, rfl⟩ := List.getElem?_eq_some_iff.mp listed
    rw [← answered (number - 1) inside, Nat.sub_add_cancel least]

/-- A page shows nothing but the items. -/
theorem mem_of_mem_page (paged : Paged ask nothing pageSize items) {number : Nat}
    {face : PageFace α} (answered : ask number = .ok face) {item : α} (member : item ∈ face.items) :
    item ∈ items := by
  obtain ⟨shown, rfl, asks⟩ := paged.exists_shown
  have listed := List.mem_of_getElem? ((asks number face).mp answered).2
  exact List.mem_flatMap.mpr ⟨face, listed, member⟩

/-- **Each of distinct items is shown on exactly one page.** -/
theorem existsUnique_page (paged : Paged ask nothing pageSize items) (distinct : items.Nodup)
    {item : α} (member : item ∈ items) :
    ∃! number, ∃ face, ask number = .ok face ∧ item ∈ face.items := by
  obtain ⟨shown, rfl, asks⟩ := paged.exists_shown
  obtain ⟨face, listed, inside⟩ := List.mem_flatMap.mp member
  obtain ⟨position, below, rfl⟩ := List.getElem_of_mem listed
  have apart := List.pairwise_iff_getElem.mp (List.nodup_flatMap.mp distinct).2
  refine ⟨position + 1, ⟨shown[position], (asks _ _).mpr ⟨Nat.le_add_left 1 position, ?_⟩, inside⟩,
    ?_⟩
  · exact List.getElem?_eq_getElem below
  · rintro other ⟨face, answered, found⟩
    obtain ⟨least, listed⟩ := (asks other face).mp answered
    obtain ⟨bound, rfl⟩ := List.getElem?_eq_some_iff.mp listed
    rcases Nat.lt_trichotomy position (other - 1) with before | same | behind
    · exact absurd found (apart position (other - 1) below bound before inside)
    · omega
    · exact absurd inside (apart (other - 1) position bound below behind found)

end Paged

/-! ## Pages of related items -/

section Related

variable {β : Type} {related : α → β → Prop}

/-- Two answers are the same error, or tell the same of a listing and show related items. -/
inductive SameFace (related : α → β → Prop) : Answer (PageFace α) → Answer (PageFace β) → Prop
  | error (error : QueryError) : SameFace related (.error error) (.error error)
  | ok (count pages page : Nat) {items : List α} {others : List β}
      (shows : List.Forall₂ related items others) :
      SameFace related (.ok ⟨count, pages, page, items⟩) (.ok ⟨count, pages, page, others⟩)

theorem SameFace.error_iff {answer : Answer (PageFace α)} {other : Answer (PageFace β)}
    (same : SameFace related answer other) {error : QueryError} :
    answer = .error error ↔ other = .error error := by
  cases same <;> simp

theorem SameFace.imp {wider : α → β → Prop} {answer : Answer (PageFace α)}
    {other : Answer (PageFace β)} (same : SameFace related answer other)
    (implies : ∀ item entry, related item entry → wider item entry) :
    SameFace wider answer other := by
  cases same with
  | error error => exact .error error
  | ok count pages page shows => exact .ok count pages page (shows.imp implies)

/-- Pages that show related items, side by side, show all of them related. -/
theorem exists_shown_of_sameFace {ask : Nat → Answer (PageFace α)}
    {other : Nat → Answer (PageFace β)}
    (same : ∀ number, SameFace related (ask number) (other number))
    {count pages : Nat} {numbers : List Nat} {shown : List (PageFace α)}
    (faces : List.Forall₂
      (fun number face => ask number = .ok face ∧ face.count = count ∧ face.pages = pages ∧
        face.page = number) numbers shown) :
    ∃ others : List (PageFace β),
      List.Forall₂
        (fun number face => other number = .ok face ∧ face.count = count ∧ face.pages = pages ∧
          face.page = number) numbers others ∧
      List.Forall₂ related (shown.flatMap (·.items)) (others.flatMap (·.items)) := by
  induction faces with
  | nil => exact ⟨[], .nil, .nil⟩
  | @cons number face _ _ head _ ih =>
      obtain ⟨others, faces, all⟩ := ih
      obtain ⟨asked, counted, paged, numbered⟩ := head
      have here := same number
      rw [asked] at here
      generalize answered : other number = answer at here
      cases here with
      | ok _ _ _ shows =>
          exact ⟨_ :: others, .cons ⟨answered, counted, paged, numbered⟩ faces,
            List.rel_append shows all⟩

/-- **Pages that show related items show a list of them**, related to the items one by one. -/
theorem Paged.exists_related {ask : Nat → Answer (PageFace α)} {other : Nat → Answer (PageFace β)}
    {nothing : QueryError} {pageSize : Nat} {items : List α}
    (paged : Paged ask nothing pageSize items)
    (same : ∀ number, SameFace related (ask number) (other number)) :
    ∃ others, List.Forall₂ related items others ∧ Paged other nothing pageSize others := by
  obtain ⟨shown, faces, rfl⟩ := paged.pages
  obtain ⟨others, faces, all⟩ := exists_shown_of_sameFace same faces
  have length := all.length_eq
  have empty_iff : shown.flatMap (·.items) = [] ↔ others.flatMap (·.items) = [] := by
    rw [← List.length_eq_zero_iff, length, List.length_eq_zero_iff]
  refine ⟨others.flatMap (·.items), all, ?_, ?_, ?_, ?_⟩
  · intro number
    rw [← (same number).error_iff, paged.nothing_iff, empty_iff]
  · intro nonempty
    exact (same 0).error_iff.mp (paged.zero (mt empty_iff.mp nonempty))
  · intro nonempty number beyond
    rw [← length] at beyond ⊢
    exact (same number).error_iff.mp (paged.beyond (mt empty_iff.mp nonempty) number beyond)
  · rw [← length]
    exact ⟨others, faces, rfl⟩

end Related

end CoinLedger
