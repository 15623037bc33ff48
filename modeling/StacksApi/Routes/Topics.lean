import StacksApi.Routes.Subscriptions

/-!
# The topics of subscriptions

What `normalizeHashString` and `isValidPrincipal` of `helpers.ts` accept.  A hash is
accepted exactly when all of its digits are hexadecimal, although only the number of
decoded bytes is looked at.  A principal is split at its dots, and what stands after the
second part is not looked at.
-/

namespace StacksApi.Routes

open StacksApi.Binary
open StacksApi.Text

/-! ## Hashes -/

/-- The digits of 32 bytes, which `0x` or `0X` may stand before. -/
structure HashText (text : String) (digits : List Char) : Prop where
  length : digits.length = 64
  hex : ∀ digit ∈ digits, (hexDigit? digit).isSome
  chars : text.toList = digits ∨ text.toList = '0' :: 'x' :: digits ∨
    text.toList = '0' :: 'X' :: digits

theorem has0xPrefix_iff {id : String} : has0xPrefix id = true ↔
    id.toList.take 2 = ['0', 'x'] ∨ id.toList.take 2 = ['0', 'X'] := by
  rw [has0xPrefix, Bool.or_eq_true, beq_iff_eq, beq_iff_eq]

namespace HashText

variable {text : String} {digits : List Char}

theorem length_fromHex (hash : HashText text digits) : (fromHex digits).length = 32 := by
  have written := congrArg List.length
    (toHex_fromHex (by rw [hash.length]) hash.hex)
  rw [length_toHex, List.length_map, hash.length] at written
  omega

theorem ascii (hash : HashText text digits) : ∀ char ∈ text.toList, char.toNat < 128 := by
  have each : ∀ char ∈ digits, char.toNat < 128 :=
    fun char mem => toNat_lt_of_hexDigit? (hash.hex char mem)
  rcases hash.chars with chars | chars | chars
  · rwa [chars]
  · rw [chars]
    exact List.forall_mem_cons.mpr ⟨by decide, List.forall_mem_cons.mpr ⟨by decide, each⟩⟩
  · rw [chars]
    exact List.forall_mem_cons.mpr ⟨by decide, List.forall_mem_cons.mpr ⟨by decide, each⟩⟩

theorem utf16Length (hash : HashText text digits) : utf16Length text = text.toList.length := by
  have units := utf16Length_ofList_of_ascii hash.ascii
  rwa [String.ofList_toList] at units

/-- A hash is decoded as a whole. -/
theorem normalize (hash : HashText text digits) :
    normalizeHashString text = some (bufferToHexPrefixString (fromHex digits)) := by
  have units := hash.utf16Length
  have accepted : ¬(fromHex digits).length ≠ 32 := not_not.mpr hash.length_fromHex
  rcases hash.chars with chars | marked
  · rw [chars, hash.length] at units
    have unmarked : ¬(StacksApi.utf16Length text = 66 ∧ has0xPrefix text = true) := by omega
    rw [normalizeHashString, if_neg unmarked, if_pos units, chars]
    exact if_neg accepted
  · have dropped : text.toList.drop 2 = digits := by
      rcases marked with chars | chars <;> rw [chars] <;> rfl
    have count : StacksApi.utf16Length text = 66 := by
      rw [units]
      rcases marked with chars | chars <;>
        rw [chars, List.length_cons, List.length_cons, hash.length]
    have isMarked : has0xPrefix text = true := by
      rw [has0xPrefix_iff]
      rcases marked with chars | chars
      · exact Or.inl (by rw [chars]; rfl)
      · exact Or.inr (by rw [chars]; rfl)
    rw [normalizeHashString, if_pos ⟨count, isMarked⟩, dropped]
    exact if_neg accepted

/-- The text of 32 bytes is a hash. -/
theorem ofBuffer {buffer : Buffer} (length : buffer.length = 32) :
    HashText (bufferToHexPrefixString buffer) (toHex buffer) where
  length := by rw [length_toHex, length]
  hex digit mem := isSome_hexDigit?_of_mem_toHex mem
  chars := Or.inr (Or.inl (toList_bufferToHexPrefixString buffer))

end HashText

section Parts

universe u

variable {α : Type u} [DecidableEq α] {separator : α} {text : List α}

/-- No part contains the separator. -/
theorem notMem_of_mem_splitOn {part : List α} (mem : part ∈ text.splitOn separator) :
    separator ∉ part := by
  induction text generalizing part with
  | nil =>
      rw [List.splitOn_nil, List.mem_singleton] at mem
      rw [mem]
      exact List.not_mem_nil
  | cons first rest ih =>
      rw [List.splitOn_cons_eq_if_modifyHead] at mem
      split at mem
      · rcases List.mem_cons.mp mem with rfl | later
        · exact List.not_mem_nil
        · exact ih later
      · next differs =>
          obtain ⟨head, parts, split⟩ := List.exists_cons_of_ne_nil
            (List.splitOn_ne_nil separator rest)
          rw [split, List.modifyHead_cons] at mem
          rw [split] at ih
          rcases List.mem_cons.mp mem with rfl | later
          · rintro (_ | ⟨_, inHead⟩)
            · exact differs (beq_self_eq_true separator)
            · exact ih List.mem_cons_self inHead
          · exact ih (List.mem_cons_of_mem _ later)

/-- The parts of a text are what its separators stand between. -/
theorem splitOn_eq_iff {parts : List (List α)} (nonempty : parts ≠ []) :
    text.splitOn separator = parts ↔
      (∀ part ∈ parts, separator ∉ part) ∧ [separator].intercalate parts = text := by
  constructor
  · rintro rfl
    exact ⟨fun _ mem => notMem_of_mem_splitOn mem, List.intercalate_splitOn separator⟩
  · rintro ⟨apart, rfl⟩
    exact List.splitOn_intercalate separator apart nonempty

theorem splitOn_eq_singleton_iff : text.splitOn separator = [text] ↔ separator ∉ text := by
  constructor
  · intro whole
    exact notMem_of_mem_splitOn (whole ▸ List.mem_singleton_self text)
  · exact List.splitOn_eq_singleton

theorem splitOn_eq_pair_iff {first second : List α} :
    text.splitOn separator = [first, second] ↔
      text = first ++ separator :: second ∧ separator ∉ first ∧ separator ∉ second := by
  have joined : [separator].intercalate [first, second] = first ++ separator :: second := by
    simp [List.intercalate]
  rw [splitOn_eq_iff (List.cons_ne_nil _ _), joined, List.forall_mem_cons,
    List.forall_mem_singleton, and_comm, eq_comm]

/-- There are more than two parts when a second separator follows the first. -/
theorem exists_splitOn_eq_iff {first second : List α} :
    (∃ third others, text.splitOn separator = first :: second :: third :: others) ↔
      (∃ rest, text = first ++ separator :: (second ++ separator :: rest)) ∧
        separator ∉ first ∧ separator ∉ second := by
  constructor
  · rintro ⟨third, others, parts⟩
    obtain ⟨apart, joined⟩ := (splitOn_eq_iff (List.cons_ne_nil _ _)).mp parts
    refine ⟨⟨[separator].intercalate (third :: others), ?_⟩, apart first List.mem_cons_self,
      apart second (List.mem_cons_of_mem _ List.mem_cons_self)⟩
    rw [← joined, List.intercalate_cons_cons, List.intercalate_cons_cons]
    simp
  · rintro ⟨⟨rest, rfl⟩, inFirst, inSecond⟩
    obtain ⟨third, others, split⟩ := List.exists_cons_of_ne_nil
      (List.splitOn_ne_nil separator rest)
    refine ⟨third, others, ?_⟩
    rw [List.splitOn_append_cons_self_of_not_mem inFirst,
      List.splitOn_append_cons_self_of_not_mem inSecond, split]

end Parts

/-! ## Principals -/

/-- The names that a contract may have. -/
structure IsContractName (name : List Char) : Prop where
  atLeast : 5 ≤ name.length
  atMost : name.length ≤ 128
  first : ∃ first ∈ name.head?, first.isAlpha = true
  rest : ∀ char ∈ name.tail, char.isAlphanum = true ∨ char = '-' ∨ char = '_'

/-- The characters of contract names are ASCII characters. -/
theorem toNat_lt_of_contractNameChar {char : Char}
    (accepted : char.isAlphanum = true ∨ char = '-' ∨ char = '_') : char.toNat < 128 := by
  rcases accepted with alphanum | rfl | rfl
  · rcases Bool.or_eq_true_iff.mp alphanum with letter | digit
    · rcases Bool.or_eq_true_iff.mp letter with upper | lower
      · exact Nat.lt_of_le_of_lt (of_decide_eq_true upper).2 (by decide)
      · have below := of_decide_eq_true (Bool.and_eq_true_iff.mp lower).2
        exact Nat.lt_of_le_of_lt below (by decide)
    · have below := of_decide_eq_true (Bool.and_eq_true_iff.mp digit).2
      exact Nat.lt_of_le_of_lt below (by decide)
  · decide
  · decide

theorem matchesContractName_iff {name : List Char} : matchesContractName name = true ↔
    (∃ first ∈ name.head?, first.isAlpha = true) ∧
      ∀ char ∈ name.tail, char.isAlphanum = true ∨ char = '-' ∨ char = '_' := by
  cases name with
  | nil => simp [matchesContractName]
  | cons first rest => simp [matchesContractName, or_assoc]

theorem isValidContractName_iff {name : List Char} :
    isValidContractName (String.ofList name) = true ↔ IsContractName name := by
  have units : matchesContractName name = true →
      utf16Length (String.ofList name) = name.length := by
    intro accepted
    obtain ⟨⟨first, isFirst, letter⟩, rest⟩ := matchesContractName_iff.mp accepted
    apply utf16Length_ofList_of_ascii
    intro char mem
    rw [← List.cons_head?_tail isFirst, List.mem_cons] at mem
    rcases mem with rfl | mem
    · exact toNat_lt_of_contractNameChar (Or.inl (Bool.or_eq_true_iff.mpr (Or.inl letter)))
    · exact toNat_lt_of_contractNameChar (rest char mem)
  rw [isValidContractName, String.toList_ofList]
  constructor
  · intro accepted
    split at accepted
    · cases accepted
    · next inRange =>
        rw [units accepted, not_or, Nat.not_lt, Nat.not_lt] at inRange
        obtain ⟨first, rest⟩ := matchesContractName_iff.mp accepted
        exact ⟨inRange.2, inRange.1, first, rest⟩
  · intro isName
    have accepted := matchesContractName_iff.mpr ⟨isName.first, isName.rest⟩
    have inRange : ¬(128 < name.length ∨ name.length < 5) := by
      rw [not_or, Nat.not_lt, Nat.not_lt]
      exact ⟨isName.atMost, isName.atLeast⟩
    rw [units accepted, if_neg inRange]
    exact accepted

section Principals

variable (addresses : AddressLibrary) (principal : String)

/-- An address without a dot. -/
def IsStandardAddress : Prop :=
  '.' ∉ principal.toList ∧ isValidC32Address addresses principal = true

/-- An address and a name of a contract, with one dot between them. -/
def IsContractAddress : Prop :=
  ∃ addr contractName, principal.toList = addr ++ '.' :: contractName ∧
    '.' ∉ addr ∧ '.' ∉ contractName ∧
    isValidC32Address addresses (String.ofList addr) = true ∧ IsContractName contractName

/-- Something follows an address and the name of a contract behind another dot. -/
def HasFurtherPart : Prop :=
  ∃ addr contractName, (∃ rest, principal.toList = addr ++ '.' :: (contractName ++ '.' :: rest)) ∧
    ('.' ∉ addr ∧ '.' ∉ contractName) ∧
    isValidC32Address addresses (String.ofList addr) = true ∧ IsContractName contractName

/-- Exactly principals are accepted, each under its type. -/
structure AcceptsPrincipal : Prop where
  standard : isValidPrincipal addresses principal = some .standardAddress ↔
    IsStandardAddress addresses principal
  contract : isValidPrincipal addresses principal = some .contractAddress ↔
    IsContractAddress addresses principal
  refused : isValidPrincipal addresses principal = none ↔
    ¬IsStandardAddress addresses principal ∧ ¬IsContractAddress addresses principal

end Principals

section Accepted

variable {addresses : AddressLibrary} {principal : String}

theorem isStandardAddress_iff : IsStandardAddress addresses principal ↔
    principal.toList.splitOn '.' = [principal.toList] ∧
      isValidC32Address addresses principal = true := by
  rw [IsStandardAddress, splitOn_eq_singleton_iff]

theorem isContractAddress_iff : IsContractAddress addresses principal ↔
    ∃ addr contractName, principal.toList.splitOn '.' = [addr, contractName] ∧
      isValidC32Address addresses (String.ofList addr) = true ∧ IsContractName contractName := by
  simp only [IsContractAddress, splitOn_eq_pair_iff, and_assoc]

theorem hasFurtherPart_iff : HasFurtherPart addresses principal ↔
    ∃ addr contractName,
      (∃ third others, principal.toList.splitOn '.' = addr :: contractName :: third :: others) ∧
        isValidC32Address addresses (String.ofList addr) = true ∧
          IsContractName contractName := by
  simp only [HasFurtherPart, exists_splitOn_eq_iff, and_assoc]

variable (addresses) in
/-- The answer to a text of two or more parts depends on the first two. -/
theorem isValidPrincipal_of_parts {addr contractName : List Char} {others : List (List Char)}
    (parts : principal.toList.splitOn '.' = addr :: contractName :: others) :
    (isValidC32Address addresses (String.ofList addr) = true ∧ IsContractName contractName →
        isValidPrincipal addresses principal = some .contractAddress) ∧
      (¬(isValidC32Address addresses (String.ofList addr) = true ∧
          IsContractName contractName) → isValidPrincipal addresses principal = none) := by
  have nonempty : principal ≠ "" := by
    rintro rfl
    cases parts
  rw [isValidPrincipal, if_neg nonempty, parts]
  simp only [← isValidContractName_iff]
  constructor
  · rintro ⟨address, name⟩
    rw [if_neg (by rw [address]; decide), if_neg (by rw [name]; decide)]
  · intro refused
    by_cases address : isValidC32Address addresses (String.ofList addr) = true
    · have name := Bool.eq_false_iff.mpr fun name => refused ⟨address, name⟩
      rw [if_neg (by rw [address]; decide), if_pos name]
    · rw [if_pos (Bool.eq_false_iff.mpr address)]

theorem isValidPrincipal_of_singlePart (refusesEmpty : isValidC32Address addresses "" = false)
    {part : List Char} (parts : principal.toList.splitOn '.' = [part]) :
    isValidPrincipal addresses principal =
      if isValidC32Address addresses principal = true then some .standardAddress else none := by
  rw [isValidPrincipal, parts]
  by_cases empty : principal = ""
  · rw [if_pos empty, empty, if_neg (by rw [refusesEmpty]; decide)]
  · rw [if_neg empty]

theorem not_isContractAddress_of_isStandardAddress
    (standard : IsStandardAddress addresses principal) :
    ¬IsContractAddress addresses principal := by
  rintro ⟨addr, contractName, chars, -⟩
  apply standard.1
  rw [chars]
  exact List.mem_append_right _ List.mem_cons_self

namespace AcceptsPrincipal

theorem of_standard (answer : isValidPrincipal addresses principal = some .standardAddress)
    (standard : IsStandardAddress addresses principal) : AcceptsPrincipal addresses principal where
  standard := iff_of_true answer standard
  contract := iff_of_false (by rw [answer]; decide)
    (not_isContractAddress_of_isStandardAddress standard)
  refused := iff_of_false (by rw [answer]; decide) fun neither => neither.1 standard

theorem of_contract (answer : isValidPrincipal addresses principal = some .contractAddress)
    (contract : IsContractAddress addresses principal) : AcceptsPrincipal addresses principal where
  standard := iff_of_false (by rw [answer]; decide)
    fun standard => not_isContractAddress_of_isStandardAddress standard contract
  contract := iff_of_true answer contract
  refused := iff_of_false (by rw [answer]; decide) fun neither => neither.2 contract

theorem of_refused (answer : isValidPrincipal addresses principal = none)
    (notStandard : ¬IsStandardAddress addresses principal)
    (notContract : ¬IsContractAddress addresses principal) :
    AcceptsPrincipal addresses principal where
  standard := iff_of_false (by rw [answer]; decide) notStandard
  contract := iff_of_false (by rw [answer]; decide) notContract
  refused := iff_of_true answer ⟨notStandard, notContract⟩

end AcceptsPrincipal

/-- A text of one part is an address or nothing. -/
theorem acceptsPrincipal_of_singlePart (refusesEmpty : isValidC32Address addresses "" = false)
    {part : List Char} (parts : principal.toList.splitOn '.' = [part]) :
    AcceptsPrincipal addresses principal ∧ ¬HasFurtherPart addresses principal := by
  have whole : principal.toList.splitOn '.' = [principal.toList] := by
    have joined := ((splitOn_eq_iff (List.cons_ne_nil _ _)).mp parts).2
    rw [parts, ← joined]
    simp [List.intercalate]
  have notContract : ¬IsContractAddress addresses principal := by
    rw [isContractAddress_iff, whole]
    rintro ⟨addr, contractName, pair, -⟩
    cases pair
  have nothingFollows : ¬HasFurtherPart addresses principal := by
    rw [hasFurtherPart_iff, whole]
    rintro ⟨addr, contractName, ⟨third, others, more⟩, -⟩
    cases more
  have answer := isValidPrincipal_of_singlePart refusesEmpty parts
  refine ⟨?_, nothingFollows⟩
  by_cases address : isValidC32Address addresses principal = true
  · rw [if_pos address] at answer
    exact AcceptsPrincipal.of_standard answer (isStandardAddress_iff.mpr ⟨whole, address⟩)
  · rw [if_neg address] at answer
    exact AcceptsPrincipal.of_refused answer (fun standard => address standard.2) notContract

/-- Exactly the principals are accepted, unless something follows an address and the
name of a contract behind another dot. -/
theorem isValidPrincipal_exact_iff (addresses : AddressLibrary)
    (refusesEmpty : isValidC32Address addresses "" = false) (principal : String) :
    AcceptsPrincipal addresses principal ↔ ¬HasFurtherPart addresses principal := by
  rcases parts : principal.toList.splitOn '.' with _ | ⟨addr, _ | ⟨contractName, others⟩⟩
  · exact absurd parts (List.splitOn_ne_nil _ _)
  · exact iff_of_true (acceptsPrincipal_of_singlePart refusesEmpty parts).1
      (acceptsPrincipal_of_singlePart refusesEmpty parts).2
  · have notStandard : ¬IsStandardAddress addresses principal := by
      rw [isStandardAddress_iff, parts]
      rintro ⟨single, -⟩
      cases single
    have contract : IsContractAddress addresses principal ↔ others = [] ∧
        isValidC32Address addresses (String.ofList addr) = true ∧ IsContractName contractName := by
      rw [isContractAddress_iff, parts]
      simp
    have further : HasFurtherPart addresses principal ↔ others ≠ [] ∧
        isValidC32Address addresses (String.ofList addr) = true ∧ IsContractName contractName := by
      rw [hasFurtherPart_iff, parts]
      simp [List.ne_nil_iff_exists_cons]
    obtain ⟨accepted, refused⟩ := isValidPrincipal_of_parts addresses parts
    rw [further]
    by_cases named : isValidC32Address addresses (String.ofList addr) = true ∧
        IsContractName contractName
    · constructor
      · rintro accepts ⟨followed, -⟩
        exact followed (contract.mp (accepts.contract.mp (accepted named))).1
      · intro ends
        have nothing : others = [] := by
          by_contra followed
          exact ends ⟨followed, named⟩
        exact AcceptsPrincipal.of_contract (accepted named) (contract.mpr ⟨nothing, named⟩)
    · exact iff_of_true (AcceptsPrincipal.of_refused (refused named) notStandard
        fun isContract => named (contract.mp isContract).2) fun ends => named ends.2

end Accepted

/-- A contract is accepted. -/
theorem isValidPrincipal_exact_contract :
    isValidC32Address AddressLibrary.zeroHash "" = false ∧
      AcceptsPrincipal AddressLibrary.zeroHash "ST000000000000000000002AMW42H.hello-world" ∧
      isValidPrincipal AddressLibrary.zeroHash "ST000000000000000000002AMW42H.hello-world" =
        some .contractAddress := by
  refine ⟨by decide, (isValidPrincipal_exact_iff AddressLibrary.zeroHash (by decide) _).mpr ?_,
    by decide⟩
  have parts : "ST000000000000000000002AMW42H.hello-world".toList.splitOn '.' =
      ["ST000000000000000000002AMW42H".toList, "hello-world".toList] := by decide
  rw [hasFurtherPart_iff, parts]
  rintro ⟨addr, contractName, ⟨third, others, more⟩, -⟩
  cases more

/-- A contract with another part behind it is accepted too, and is no principal. -/
theorem isValidPrincipal_inexact :
    isValidPrincipal AddressLibrary.zeroHash "ST000000000000000000002AMW42H.hello-world.more" =
        some .contractAddress ∧
      ¬AcceptsPrincipal AddressLibrary.zeroHash
        "ST000000000000000000002AMW42H.hello-world.more" := by
  have accepted : isValidPrincipal AddressLibrary.zeroHash
      "ST000000000000000000002AMW42H.hello-world.more" = some .contractAddress := by decide
  refine ⟨accepted, fun accepts => ?_⟩
  obtain ⟨addr, contractName, pair, -⟩ := isContractAddress_iff.mp (accepts.contract.mp accepted)
  have parts : "ST000000000000000000002AMW42H.hello-world.more".toList.splitOn '.' =
      ["ST000000000000000000002AMW42H".toList, "hello-world".toList, "more".toList] := by decide
  rw [parts] at pair
  cases pair

end StacksApi.Routes
