import CoinLedger.Proofs.Script.Grammar

/-!
# Reading scripts by position

The lock and the destination of a script can be read byte by byte at given positions, after a look
at the length only.  Such a reading has no result as soon as it asks for a position that the script
does not have.  It always has one, the same as the split of the script into parts
(`splitAt?_eq_some`, `destinationAt?_eq_some`): no script is read beyond its end.

With the grammar of scripts this settles what every script is split into and which destination it
names (`lock_destination_grammar`).
-/

set_option autoImplicit false

namespace CoinLedger.Script

open Number

variable {script : List UInt8}

/-! ## Positions -/

/-- The bytes from one position up to another; `none` when the script ends before. -/
def slice? (script : List UInt8) (first last : Nat) : Option (List UInt8) :=
  if first ≤ last ∧ last ≤ script.length then some ((script.take last).drop first) else none

/-- Whether given bytes stand at a position; `none` when a byte is asked for behind the end. -/
def standAt? (script : List UInt8) (position : Nat) : List UInt8 → Option Bool
  | [] => some true
  | byte :: rest => do
    let found ← script[position]?
    if found = byte then standAt? script (position + 1) rest else some false

/-- So many bytes between a head and a tail, in a script of just that length. -/
def framedAt? (head tail : List UInt8) (count : Nat) (script : List UInt8) :
    Option (Option (List UInt8)) :=
  if script.length = head.length + count + tail.length then do
    if ← standAt? script 0 head then
      if ← standAt? script (head.length + count) tail then
        (slice? script head.length (head.length + count)).map some
      else some none
    else some none
  else some none

/-- A number read from its bytes; its sign is in the byte at the last position. -/
def numberAt? (bytes : List UInt8) : Option (Option Int64) :=
  if bytes.isEmpty || 8 < bytes.length then some none
  else do
    let last ← bytes[bytes.length - 1]?
    let magnitude := littleEndian bytes - 0x80 <<< (8 * (bytes.length - 1))
    some (some (if 0x80 ≤ last then Int64.ofInt (-(magnitude : Int))
      else Int64.ofNat (littleEndian bytes)))

/-- The number that the first operation pushes, and how many bytes push it. -/
def lockValueAt? (script : List UInt8) : Option (Option (Int64 × Nat)) :=
  match script[0]? with
  | none => some none
  | some first =>
    if first = opZero then some (some (0, 1))
    else if opOne ≤ first ∧ first ≤ opSixteen then
      some (some (Int64.ofNat (first.toNat - opOne.toNat + 1), 1))
    else if first.toNat ≤ maxLockBytes then
      if script.length < 1 + first.toNat then some none
      else do
        let bytes ← slice? script 1 (1 + first.toNat)
        let value ← numberAt? bytes
        some (value.map fun value => (value, 1 + first.toNat))
    else some none

/-- The lock in front of a script and the script behind it. -/
def splitAt? (script : List UInt8) : Option (UInt32 × List UInt8) := do
  match ← lockValueAt? script with
  | none => some (0, script)
  | some (value, count) =>
    if script.length < count + 2 then some (0, script)
    else if ← standAt? script count [opCheckLockTimeVerify, opDrop] then
      (slice? script (count + 2) script.length).map fun rest => (lockOfValue value, rest)
    else some (0, script)

/-- The hash in the first twenty bytes. -/
def hashAt? (bytes : List UInt8) : Option Hash160 := do
  let hash ← slice? bytes 0 20
  if sized : hash.length = 20 then some ⟨hash, sized⟩ else none

/-- A public key of the given length that the script checks a signature against. -/
def pubKeyAt? (length : Nat) (script : List UInt8) : Option (Option (List UInt8)) :=
  framedAt? [UInt8.ofNat length] [opCheckSig] length script

/-- The destination of a script without a lock in front. -/
def plainDestinationAt? (script : List UInt8) : Option (Option AddressKey) := do
  match ← framedAt? pubKeyHashHead pubKeyHashTail 20 script with
  | some middle => (hashAt? middle).map fun hash => some ⟨hash, .pubKeyHash⟩
  | none =>
    match ← framedAt? scriptHashHead scriptHashTail 20 script with
    | some middle => (hashAt? middle).map fun hash => some ⟨hash, .scriptHash⟩
    | none =>
      match ← pubKeyAt? 33 script with
      | some key => some (some ⟨Hash160.ofData key, .pubKeyHash⟩)
      | none => (pubKeyAt? 65 script).map (·.map fun key => ⟨Hash160.ofData key, .pubKeyHash⟩)

/-- The destination of a script, whatever lock stands in front. -/
def destinationAt? (script : List UInt8) : Option (Option AddressKey) := do
  let (_, plain) ← splitAt? script
  plainDestinationAt? plain

/-! ## Frames -/

theorem slice?_eq_some {first last : Nat} (ordered : first ≤ last) (within : last ≤ script.length) :
    slice? script first last = some ((script.drop first).take (last - first)) := by
  rw [slice?, if_pos ⟨ordered, within⟩, List.drop_take]

/-- Bytes that fit behind a position are looked for without reading further. -/
theorem standAt?_eq_some {position : Nat} {bytes : List UInt8}
    (within : position + bytes.length ≤ script.length) :
    standAt? script position bytes =
      some (decide ((script.drop position).take bytes.length = bytes)) := by
  induction bytes generalizing position with
  | nil => simp [standAt?]
  | cons byte rest ih =>
      rw [List.length_cons] at within
      have inside : position < script.length := by omega
      have others := ih (show position + 1 + rest.length ≤ script.length by omega)
      rw [standAt?, List.getElem?_eq_getElem inside, Option.bind_eq_bind, Option.bind_some, others,
        List.drop_eq_getElem_cons inside, List.length_cons, List.take_succ_cons]
      by_cases same : script[position] = byte
      · simp [same]
      · simp [same]

/-- **A frame is found by position exactly where the script is cut into head, middle and tail.** -/
theorem framedAt?_eq_some {head tail : List UInt8} {count : Nat} (found : Option (List UInt8))
    (found_iff : ∀ middle, found = some middle ↔
      middle.length = count ∧ head ++ middle ++ tail = script) :
    framedAt? head tail count script = some found := by
  rw [framedAt?]
  split
  next sized =>
    rw [standAt?_eq_some (by omega), standAt?_eq_some (by omega), List.drop_zero,
      slice?_eq_some (Nat.le_add_right _ _) (by omega), Nat.add_sub_cancel_left]
    by_cases ends : script.take head.length = head ∧
        (script.drop (head.length + count)).take tail.length = tail
    · have middle : found = some ((script.drop head.length).take count) := by
        refine (found_iff _).mpr ⟨List.length_take_of_le (by rw [List.length_drop]; omega), ?_⟩
        have last : (script.drop (head.length + count)).take tail.length =
            script.drop (head.length + count) :=
          List.take_of_length_le (by rw [List.length_drop]; omega)
        rw [last] at ends
        calc head ++ (script.drop head.length).take count ++ tail
            = script.take head.length ++ ((script.drop head.length).take count ++
                (script.drop head.length).drop count) := by
              rw [ends.1, List.drop_drop, ends.2, List.append_assoc]
          _ = script := by rw [List.take_append_drop, List.take_append_drop]
      simp [ends.1, ends.2, middle]
    · have nothing : found = none := by
        refine Option.eq_none_iff_forall_ne_some.mpr fun middle same => ends ?_
        obtain ⟨rfl, rfl⟩ := (found_iff middle).mp same
        simp
      rw [not_and] at ends
      by_cases front : script.take head.length = head
      · simp [front, ends front, nothing]
      · simp [front, nothing]
  next unsized =>
    refine congrArg some (Option.eq_none_iff_forall_ne_some.mpr fun middle same => ?_).symm
    obtain ⟨length, rfl⟩ := (found_iff middle).mp same
    rw [List.length_append, List.length_append, length] at unsized
    exact unsized rfl

theorem framedAt?_hash (head tail script : List UInt8) :
    framedAt? head tail 20 script =
      some ((hashBetween? head tail script).map Hash160.bytes) := by
  refine framedAt?_eq_some _ fun middle => ?_
  rw [Option.map_eq_some_iff]
  constructor
  · rintro ⟨hash, found, rfl⟩
    exact ⟨hash.length_bytes, hashBetween?_eq_some_iff.mp found⟩
  · rintro ⟨sized, whole⟩
    exact ⟨⟨middle, sized⟩, hashBetween?_eq_some_iff.mpr whole, rfl⟩

theorem pubKeyAt?_eq_some (length : Nat) (script : List UInt8) :
    pubKeyAt? length script = some (pubKey? length script) :=
  framedAt?_eq_some _ fun _ => pubKey?_eq_some_iff

theorem hashAt?_bytes (hash : Hash160) : hashAt? hash.bytes = some hash := by
  have sized := hash.length_bytes
  have whole : slice? hash.bytes 0 20 = some hash.bytes := by
    rw [slice?_eq_some (Nat.zero_le _) (Nat.le_of_eq sized.symm), List.drop_zero, Nat.sub_zero,
      List.take_of_length_le (Nat.le_of_eq sized)]
  rw [hashAt?, whole, Option.bind_eq_bind, Option.bind_some, dif_pos sized]

/-! ## Locks and destinations -/

/-- The sign of a number is looked up where the number ends. -/
theorem numberAt?_eq_some (bytes : List UInt8) : numberAt? bytes = some (decode? bytes) := by
  by_cases empty : bytes = []
  · subst empty
    rfl
  · obtain ⟨front, last, rfl⟩ : ∃ front last, bytes = front ++ [last] :=
      ⟨_, _, (List.dropLast_concat_getLast empty).symm⟩
    have ends : (front ++ [last]).getLast? = some last := by simp
    have inside : (front ++ [last])[(front ++ [last]).length - 1]? = some last := by simp
    have filled : (front ++ [last]).isEmpty = false := by simp
    rw [numberAt?, decode?, ends, inside, filled, Bool.false_or]
    simp only [decide_eq_true_eq, Option.bind_eq_bind, Option.bind_some]
    split
    next => rfl
    next => split <;> rfl

/-- The pushed number is looked up inside the script, and what pushes it ends there. -/
theorem lockValueAt?_cases (script : List UInt8) :
    (lockValueAt? script = some none ∧ readLockValue script = none) ∨
      ∃ value count, lockValueAt? script = some (some (value, count)) ∧
        count ≤ script.length ∧ readLockValue script = some (value, script.drop count) := by
  cases script with
  | nil => exact .inl ⟨rfl, rfl⟩
  | cons first others =>
      rw [lockValueAt?, readLockValue, List.getElem?_cons_zero]
      dsimp only
      split
      next => exact .inr ⟨0, 1, rfl, Nat.le_add_left _ _, rfl⟩
      next =>
        split
        next => exact .inr ⟨_, 1, rfl, Nat.le_add_left _ _, rfl⟩
        next =>
          split
          next =>
            have shorter : (first :: others).length < 1 + first.toNat ↔
                others.length < first.toNat := by
              rw [List.length_cons]
              omega
            by_cases missing : others.length < first.toNat
            · rw [if_pos (shorter.mpr missing), if_pos missing]
              exact .inl ⟨rfl, rfl⟩
            · have within : 1 + first.toNat ≤ (first :: others).length :=
                Nat.not_lt.mp (missing ∘ shorter.mp)
              rw [if_neg (missing ∘ shorter.mp), if_neg missing,
                slice?_eq_some (Nat.le_add_right _ _) within, Nat.add_sub_cancel_left,
                List.drop_one, List.tail_cons, Option.bind_eq_bind, Option.bind_some,
                numberAt?_eq_some, Option.bind_eq_bind, Option.bind_some]
              cases decode? (others.take first.toNat) with
              | none => exact .inl ⟨rfl, rfl⟩
              | some value =>
                  refine .inr ⟨value, 1 + first.toNat, rfl, within, ?_⟩
                  rw [Nat.add_comm 1, List.drop_succ_cons, Option.map_some]
          next => exact .inl ⟨rfl, rfl⟩

/-- **The lock of a script is found by position.** -/
theorem splitAt?_eq_some (script : List UInt8) : splitAt? script = some (splitLock script) := by
  rw [splitAt?, splitLock]
  rcases lockValueAt?_cases script with ⟨found, read⟩ | ⟨value, count, found, within, read⟩
  · rw [found, read]
    rfl
  · rw [found, read, Option.bind_eq_bind, Option.bind_some]
    dsimp only
    -- The split looks at the two bytes behind the number only if both are there.
    by_cases missing : script.length < count + 2
    · have behind : (script.drop count).length < 2 := by
        rw [List.length_drop]
        omega
      rw [if_pos missing]
      generalize script.drop count = after at behind
      rcases after with _ | ⟨check, _ | ⟨drop, rest⟩⟩
      · rfl
      · rfl
      · rw [List.length_cons, List.length_cons] at behind
        omega
    · obtain ⟨check, drop, parts⟩ : ∃ check drop,
          script.drop count = check :: drop :: script.drop (count + 2) :=
        ⟨_, _, (List.drop_eq_getElem_cons (by omega)).trans
          (congrArg _ (List.drop_eq_getElem_cons (by omega)))⟩
      rw [if_neg missing, standAt?_eq_some (Nat.not_lt.mp missing),
        slice?_eq_some (Nat.not_lt.mp missing) (Nat.le_refl _), parts,
        List.take_of_length_le (Nat.le_of_eq List.length_drop)]
      by_cases locked : check = opCheckLockTimeVerify ∧ drop = opDrop
      · simp [locked]
      · simp [locked]

theorem plainDestinationAt?_eq_some (script : List UInt8) :
    plainDestinationAt? script = some (plainDestination script) := by
  rw [plainDestinationAt?, plainDestination, framedAt?_hash, framedAt?_hash, pubKeyAt?_eq_some,
    pubKeyAt?_eq_some]
  cases hashBetween? pubKeyHashHead pubKeyHashTail script with
  | some hash => simp [hashAt?_bytes]
  | none =>
      cases hashBetween? scriptHashHead scriptHashTail script with
      | some hash => simp [hashAt?_bytes]
      | none =>
          cases pubKey? 33 script with
          | some key => rfl
          | none => cases pubKey? 65 script <;> rfl

/-- **The destination of a script is found by position.** -/
theorem destinationAt?_eq_some (script : List UInt8) :
    destinationAt? script = some (destination script) := by
  rw [destinationAt?, splitAt?_eq_some, destination]
  exact plainDestinationAt?_eq_some _

/-- **What scripts are made of.**  A lock is split off exactly where a pushed number stands before
the operations that check and drop it; its value is the number if a lock can have it, and zero
otherwise.  Where none stands the whole script is left with lock zero.  The destination depends on
what is left alone, and there is one exactly if that has a standard form.  No byte behind the end of
the script is asked for. -/
theorem lock_destination_grammar :
    (∀ script, ((splitLock script).2 <:+ script ∧ (splitLock script).2 ≠ script) ↔
      ∃ number rest, LockedBy script number rest) ∧
    (∀ script number rest, LockedBy script number rest → (splitLock script).2 = rest ∧
      ((splitLock script).1.toNat : Int) = if 0 ≤ number ∧ number < 2 ^ 32 then number else 0) ∧
    (∀ script, (¬ ∃ number rest, LockedBy script number rest) → splitLock script = (0, script)) ∧
    (∀ script other, (splitLock script).2 = (splitLock other).2 →
      destination script = destination other) ∧
    (∀ script key, destination script = some key ↔ Names (splitLock script).2 key) ∧
    ∀ script, splitAt? script = some (splitLock script) ∧
      destinationAt? script = some (destination script) :=
  ⟨fun _ => splitLock_proper_iff, fun _ _ _ => splitLock_of_locked,
    fun _ => splitLock_of_not_locked, fun _ _ => congrArg plainDestination,
    fun _ _ => plainDestination_eq_some_iff,
    fun script => ⟨splitAt?_eq_some script, destinationAt?_eq_some script⟩⟩

/-- The hash whose bytes are all seven. -/
def sevens : Hash160 := ⟨List.replicate 20 7, rfl⟩

/-- A payment to the hash of a script behind a lock that pushes a negative number. -/
def behindNegative : List UInt8 :=
  [0x02, 0xff, 0x80] ++ [0xb1, 0x75] ++ ([0xa9, 0x14] ++ sevens.bytes ++ [0x87])

/-- A lock that pushes a negative number is split off as lock zero, and what it stands before names
its destination. -/
theorem lock_destination_grammar_negative :
    LockedBy behindNegative (-255) ([0xa9, 0x14] ++ sevens.bytes ++ [0x87]) ∧
    (splitLock behindNegative).2 = [0xa9, 0x14] ++ sevens.bytes ++ [0x87] ∧
    (splitLock behindNegative).1 = 0 ∧
    destination behindNegative = some ⟨sevens, .scriptHash⟩ := by
  have locked : LockedBy behindNegative (-255) ([0xa9, 0x14] ++ sevens.bytes ++ [0x87]) :=
    ⟨_, @PushesNumber.counted [0xff] 0x80 (by decide), rfl⟩
  obtain ⟨_, split, _, _, names, _⟩ := lock_destination_grammar
  obtain ⟨rest, lock⟩ := split _ _ _ locked
  refine ⟨locked, rest, UInt32.toNat_inj.mp (Int.ofNat_inj.mp lock), (names _ _).mpr ?_⟩
  rw [rest]
  exact .scriptHash sevens

end CoinLedger.Script
