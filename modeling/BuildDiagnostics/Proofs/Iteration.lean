import BuildDiagnostics.Proofs.Segmentation
import Mathlib.Logic.Function.Iterate

/-!
# Blocks one at a time

Between two calls of `next` an iterator holds lines that were not looked at, a segmenter with a block
that may be open, and a mark that is set once the end was met. What these three mean is said by two
readings of any such state: the blocks that are still to come (`toCome`) and the segmenter that will
be left in the end (`settled`). A call answers the first block to come and takes it off, and never
changes the other reading (`takes_next`). So the answers to any number of calls are read off the first
state (`next_after`), and for a text they are what pushing its lines gives back.
-/

namespace BuildDiagnostics

namespace Segmenter

/-- The blocks that pushing some lines gives back, and after them the one that finishing does. -/
def blocksOfLines (s : Segmenter) (lines : List String) : List Block :=
  (s.pushAll lines).1 ++ (s.pushAll lines).2.finish.1.toList

variable {s s' : Segmenter} {line : String} {block? : Option Block}

theorem blocksOfLines_cons (h : s.push line = (block?, s')) (rest : List String) :
    s.blocksOfLines (line :: rest) = block?.toList ++ s'.blocksOfLines rest := by
  rw [blocksOfLines, pushAll_cons, h, List.append_assoc]
  rfl

theorem pushAll_cons_snd (h : s.push line = (block?, s')) (rest : List String) :
    (s.pushAll (line :: rest)).2 = (s'.pushAll rest).2 := by
  rw [pushAll_cons, h]

/-- Only a header gives a block back, and it leaves its own block open. -/
theorem isSome_current_of_push {block : Block} (h : s.push line = (some block, s')) :
    s'.current.isSome = true := by
  cases hline : isBlockStart line with
  | true =>
    rw [push_header s hline] at h
    rw [← (Prod.mk.inj h).2]
    rfl
  | false =>
    rw [push_continuation s hline] at h
    cases (Prod.mk.inj h).1

theorem ignored_finish (s : Segmenter) : s.finish.2.ignored = s.ignored := rfl

/-- A new segmenter ignores the lines before the first header. -/
theorem ignored_pushAll_empty (lines : List String) :
    (pushAll {} lines).2.ignored = (lines.takeWhile isContinuation).length := by
  rw [ignored_pushAll]
  exact Nat.zero_add _

/-- While a block is open no line is ignored. -/
theorem ignored_pushAll_of_isSome (h : s.current.isSome = true) (lines : List String) :
    (s.pushAll lines).2.ignored = s.ignored := by
  have hnone : ¬ s.current.isNone = true := by
    rw [Option.isNone_iff_eq_none]
    rintro e
    rw [e] at h
    cases h
  rw [ignored_pushAll, if_neg hnone, Nat.add_zero]

end Segmenter

namespace Segments

/-- The blocks that are still to come, read off the state. -/
def toCome (s : Segments) : List Block :=
  if s.exhausted then [] else s.segmenter.blocksOfLines s.remaining

/-- The segmenter as it will be when no block is left. -/
def settled (s : Segments) : Segmenter :=
  if s.exhausted then s.segmenter else (s.segmenter.pushAll s.remaining).2.finish.2

/-- The iterator after `n` calls of `next`. -/
def after (s : Segments) (n : Nat) : Segments :=
  (fun s => s.next.2)^[n] s

/-- What a call of `next` answers and what it leaves. -/
structure Takes (s : Segments) (answer : Option Block) (s' : Segments) : Prop where
  answer : answer = s.toCome.head?
  toCome : s'.toCome = s.toCome.tail
  settled : s'.settled = s.settled
  /-- From the first call on the count of ignored lines is the one of the end. -/
  ignored : s'.ignored = s.settled.ignored

theorem takes_advance (segmenter : Segmenter) (lines : List String) :
    Takes { remaining := lines, segmenter } (advance segmenter lines).1
      (advance segmenter lines).2 := by
  induction lines generalizing segmenter with
  | nil =>
    have htoCome : toCome { remaining := [], segmenter } = segmenter.current.toList := rfl
    refine ⟨?_, ?_, rfl, rfl⟩
    · rw [htoCome]
      show segmenter.current = _
      cases segmenter.current <;> rfl
    · rw [htoCome]
      show [] = _
      cases segmenter.current <;> rfl
  | cons line rest ih =>
    cases hpush : segmenter.push line with
    | mk block? segmenter' =>
      have htoCome : toCome { remaining := line :: rest, segmenter } =
          block?.toList ++ toCome { remaining := rest, segmenter := segmenter' } :=
        Segmenter.blocksOfLines_cons hpush rest
      have hsettled : settled { remaining := line :: rest, segmenter } =
          settled { remaining := rest, segmenter := segmenter' } :=
        congrArg (fun s => s.finish.2) (Segmenter.pushAll_cons_snd hpush rest)
      cases block? with
      | none =>
        -- the line is used up, and the search goes on behind it
        have hadvance : advance segmenter (line :: rest) = advance segmenter' rest := by
          rw [advance, hpush]
        have hrest := ih segmenter'
        rw [hadvance]
        refine ⟨?_, ?_, ?_, ?_⟩
        · rw [htoCome]
          exact hrest.answer
        · rw [htoCome]
          exact hrest.toCome
        · rw [hsettled]
          exact hrest.settled
        · rw [hsettled]
          exact hrest.ignored
      | some block =>
        have hadvance : advance segmenter (line :: rest) =
            (some block, { remaining := rest, segmenter := segmenter' }) := by
          rw [advance, hpush]
        have hopen := Segmenter.isSome_current_of_push hpush
        rw [hadvance]
        refine ⟨?_, ?_, hsettled.symm, ?_⟩
        · rw [htoCome]
          rfl
        · rw [htoCome]
          rfl
        · rw [hsettled]
          exact (Segmenter.ignored_pushAll_of_isSome hopen rest).symm

/-- **One call.** The first block to come is answered and taken off; nothing else changes. -/
theorem takes_next (s : Segments) : Takes s s.next.1 s.next.2 := by
  obtain ⟨remaining, segmenter, exhausted⟩ := s
  cases exhausted with
  | true => exact ⟨rfl, rfl, rfl, rfl⟩
  | false => exact takes_advance segmenter remaining

/-! ## Any number of calls -/

variable (s : Segments)

theorem after_succ (n : Nat) : s.after (n + 1) = (s.after n).next.2 :=
  Function.iterate_succ_apply' _ n s

theorem toCome_after (n : Nat) : (s.after n).toCome = s.toCome.drop n := by
  induction n with
  | zero => rfl
  | succ n ih => rw [after_succ, (takes_next _).toCome, ih, List.tail_drop]

theorem settled_after (n : Nat) : (s.after n).settled = s.settled := by
  induction n with
  | zero => rfl
  | succ n ih => rw [after_succ, (takes_next _).settled, ih]

/-- The answer to each call. -/
theorem next_after (n : Nat) : (s.after n).next.1 = s.toCome[n]? := by
  rw [(takes_next _).answer, toCome_after, List.head?_drop]

theorem ignored_after (n : Nat) : (s.after (n + 1)).ignored = s.settled.ignored := by
  rw [after_succ, (takes_next _).ignored, settled_after]

theorem toList_eq_toCome : s.toList = s.toCome := by
  fun_induction toList s with
  | case1 s h =>
    have hnone := (takes_next s).answer
    rw [h] at hnone
    exact (List.head?_eq_none_iff.1 hnone.symm).symm
  | case2 s block h ih =>
    have hsome := (takes_next s).answer
    rw [h] at hsome
    rw [ih, (takes_next s).toCome]
    exact List.cons_head?_tail hsome.symm

theorem toCome_ofText (text : String) :
    (ofText text).toCome = Segmenter.blocksOfLines {} (Text.lines text) :=
  if_neg Bool.false_ne_true

theorem settled_ofText (text : String) :
    (ofText text).settled = (Segmenter.pushAll {} (Text.lines text)).2.finish.2 :=
  if_neg Bool.false_ne_true

/-! ## The end -/

variable {s}

theorem exhausted_advance (segmenter : Segmenter) (lines : List String)
    (h : (advance segmenter lines).1 = none) : (advance segmenter lines).2.exhausted = true := by
  induction lines generalizing segmenter with
  | nil => rfl
  | cons line rest ih =>
    unfold advance at h ⊢
    split at h
    · cases h
    · next segmenter' hpush => exact ih segmenter' h

theorem exhausted_next (h : s.next.1 = none) : s.next.2.exhausted = true := by
  obtain ⟨remaining, segmenter, exhausted⟩ := s
  cases exhausted with
  | true => rfl
  | false => exact exhausted_advance segmenter remaining h

theorem next_of_exhausted (h : s.exhausted = true) : s.next = (none, s) :=
  if_pos h

/-- At the end nothing changes any more. -/
theorem after_of_exhausted (h : s.exhausted = true) (n : Nat) : s.after n = s := by
  induction n with
  | zero => rfl
  | succ n ih => rw [after_succ, ih, next_of_exhausted h]

/-- **The iterator gives what pushing gives back.** For every text the blocks are those of pushing its
lines one by one and finishing once, the answer to each call being the block of that place; from the
first call on, the count of ignored lines is that of all lines before the first header. And whatever
state an iterator is in, when it has answered `none` it does so for ever and changes no more. -/
theorem next_agrees_push :
    (∀ text : String,
      let lines := Text.lines text
      let pushed := Segmenter.pushAll {} lines
      let blocks := pushed.1 ++ pushed.2.finish.1.toList
      (ofText text).toList = blocks ∧
        (∀ n, ((ofText text).after n).next.1 = blocks[n]?) ∧
        ∀ n, ((ofText text).after (n + 1)).ignored = pushed.2.finish.2.ignored ∧
          ((ofText text).after (n + 1)).ignored =
            (lines.takeWhile fun line => !isBlockStart line).length) ∧
    ∀ s : Segments, s.next.1 = none → ∀ n,
      (s.next.2.after n).next.1 = none ∧ s.next.2.after n = s.next.2 ∧
        (s.next.2.after n).ignored = s.next.2.ignored := by
  refine ⟨?_, ?_⟩
  · intro text lines pushed blocks
    have hblocks : (ofText text).toCome = blocks := toCome_ofText text
    have hignored (n : Nat) :
        ((ofText text).after (n + 1)).ignored = pushed.2.finish.2.ignored := by
      rw [ignored_after, settled_ofText]
    refine ⟨?_, fun n => ?_, fun n => ⟨hignored n, ?_⟩⟩
    · rw [toList_eq_toCome, hblocks]
    · rw [next_after, hblocks]
    · rw [hignored, Segmenter.ignored_finish, Segmenter.ignored_pushAll_empty]
      rfl
  · intro s hnone n
    have hend := exhausted_next hnone
    have hstays := after_of_exhausted hend n
    rw [hstays, next_of_exhausted hend]
    exact ⟨rfl, rfl, rfl⟩

/-- A text that ends right behind a header, after a line of no block. -/
def sampleText : String := "ld: x\na:1:1: error: y"

theorem next_agrees_push_sampleText :
    ((ofText sampleText).after 1).next.1 = none ∧
      (((ofText sampleText).after 1).next.2.after 3).next.1 = none ∧
      (((ofText sampleText).after 1).next.2.after 3).ignored = 1 ∧
      (ofText sampleText).toList = [{ lineNumber := 2, header := "a:1:1: error: y" }] := by
  obtain ⟨htext, hfused⟩ := next_agrees_push
  obtain ⟨hlist, hanswers, hignored⟩ := htext sampleText
  have hend : ((ofText sampleText).after 1).next.1 = none := by
    rw [hanswers 1]
    decide +kernel
  obtain ⟨hnone, -, hcount⟩ := hfused _ hend 3
  refine ⟨hend, hnone, ?_, ?_⟩
  · rw [hcount, ← after_succ, (hignored 1).2]
    decide +kernel
  · rw [hlist]
    decide +kernel

end Segments

end BuildDiagnostics
