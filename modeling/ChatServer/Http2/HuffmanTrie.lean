import ChatServer.Http2.Huffman

/-!
# The tree built by `hf_init`

`Holds node entries` says that a node stores exactly the given bit strings, each with its
symbol: a string of at most eight bits is a leaf at every index that starts with it, a
longer one lies below the child of its first byte, and a child no string leads to is
null. Inserting a string that is not comparable with those already there adds it, so the
tree of `hf_init` holds the codes of all symbols.
-/

namespace ChatServer.Http2

set_option autoImplicit false

open BitString PrefixCode

def byteBits (byte : UInt8) : List Bool := natBits 8 byte.toNat

@[simp] theorem byte_bits_length (byte : UInt8) : (byteBits byte).length = 8 :=
  nat_bits_length _ _

theorem byte_bits_inj {first second : UInt8} (same : byteBits first = byteBits second) :
    first = second := by
  apply UInt8.toNat_inj.mp
  exact nat_bits_inj first.toNat_lt second.toNat_lt same

theorem byte_bits_of_nat (value : Nat) : byteBits (UInt8.ofNat value) = natBits 8 value := by
  rw [byteBits, UInt8.toNat_ofNat', nat_bits_mod _ (Nat.le_refl 8)]

inductive Holds : Node → (List Bool → UInt8 → Prop) → Prop where
  | intro (children : UInt8 → Node) (sym : UInt8) (code codeLen size : Nat)
      (entries : List Bool → UInt8 → Prop)
      (counted : ∀ bits symbol, entries bits symbol → bits.length ≤ 8 → 0 < size)
      (leaf : ∀ bits symbol index, entries bits symbol → bits <+: byteBits index →
        ∃ code, children index = .node (fun _ => .null) symbol code bits.length 0)
      (inner : ∀ index bits symbol, entries (byteBits index ++ bits) symbol → bits ≠ [] →
        Holds (children index) fun bits symbol =>
          entries (byteBits index ++ bits) symbol ∧ bits ≠ [])
      (absent : ∀ index, (∀ bits symbol, entries bits symbol →
        ¬bits <+: byteBits index ∧ ¬byteBits index <+: bits) → children index = .null) :
      Holds (.node children sym code codeLen size) entries

theorem holds_create {entries : List Bool → UInt8 → Prop}
    (empty : ∀ bits symbol, ¬entries bits symbol) : Holds Node.create entries := by
  apply Holds.intro
  · exact fun bits symbol entry _ => absurd entry (empty bits symbol)
  · exact fun bits symbol _ entry _ => absurd entry (empty bits symbol)
  · exact fun _ bits symbol entry _ => absurd entry (empty _ symbol)
  · exact fun _ _ => rfl

theorem fill_leaves_eq (sym : UInt8) (code codeLen : Nat) (nodeSym : UInt8)
    (nodeCode nodeLen count : Nat) :
    ∀ (children : UInt8 → Node) (size start : Nat), start + count ≤ 256 →
      fillLeaves sym code codeLen (.node children nodeSym nodeCode nodeLen size) start count =
        .node (fun index =>
          if start ≤ index.toNat ∧ index.toNat < start + count
          then (children index).orCreate.setLeaf sym code codeLen else children index)
          nodeSym nodeCode nodeLen (size + count) := by
  induction count with
  | zero =>
      intro children size start _
      rw [fillLeaves, Nat.add_zero]
      congr 1
      funext index
      rw [if_neg (by omega)]
  | succ count induction =>
      intro children size start bound
      have first : (UInt8.ofNat start).toNat = start := by
        rw [UInt8.toNat_ofNat', Nat.mod_eq_of_lt (by omega)]
      rw [fillLeaves]
      simp only [Node.child, Node.setChild, Node.sizeIncrement]
      rw [induction _ _ (start + 1) (by omega)]
      congr 1
      · funext index
        by_cases here : index = UInt8.ofNat start
        · have value : index.toNat = start := by rw [here, first]
          rw [if_neg (by omega), if_pos (by omega), here, Function.update_self]
        · have value : index.toNat ≠ start := by
            intro equal
            apply here
            rw [← equal, UInt8.ofNat_toNat]
          rw [Function.update_of_ne here]
          by_cases inside : start + 1 ≤ index.toNat ∧ index.toNat < start + 1 + count
          · rw [if_pos inside, if_pos (by omega)]
          · rw [if_neg inside, if_neg (by omega)]
      · omega

theorem leaf_start {code codeLen : Nat} (short : codeLen ≤ 8) :
    (UInt8.ofNat (code <<< (8 - codeLen))).toNat =
      code % 2 ^ codeLen * 2 ^ (8 - codeLen) := by
  have whole : 2 ^ codeLen * 2 ^ (8 - codeLen) = 2 ^ 8 := by
    rw [← Nat.pow_add, Nat.add_sub_cancel' short]
  rw [UInt8.toNat_ofNat', Nat.shiftLeft_eq, ← whole, Nat.mul_mod_mul_right]

/-- The children `_hf_add_node` turns into leaves are those whose index starts with the code. -/
theorem leaf_range_iff {code codeLen : Nat} (short : codeLen ≤ 8) (index : UInt8) :
    ((UInt8.ofNat (code <<< (8 - codeLen))).toNat ≤ index.toNat ∧
      index.toNat < (UInt8.ofNat (code <<< (8 - codeLen))).toNat + 1 <<< (8 - codeLen)) ↔
      natBits codeLen code <+: byteBits index := by
  have positive := Nat.two_pow_pos (8 - codeLen)
  have small : code % 2 ^ codeLen < 2 ^ codeLen := Nat.mod_lt _ (Nat.two_pow_pos _)
  rw [leaf_start short, Nat.one_shiftLeft, byteBits, ← nat_bits_mod code (Nat.le_refl codeLen),
    nat_bits_prefix_iff small index.toNat_lt, Nat.div_eq_iff positive]
  constructor
  · intro inside
    exact ⟨short, inside.1, by omega⟩
  · intro inside
    exact ⟨inside.2.1, by omega⟩

theorem leaf_range_end {code codeLen : Nat} (short : codeLen ≤ 8) :
    (UInt8.ofNat (code <<< (8 - codeLen))).toNat + 1 <<< (8 - codeLen) ≤ 256 := by
  have whole : 2 ^ codeLen * 2 ^ (8 - codeLen) = 2 ^ 8 := by
    rw [← Nat.pow_add, Nat.add_sub_cancel' short]
  have small : code % 2 ^ codeLen + 1 ≤ 2 ^ codeLen := Nat.mod_lt _ (Nat.two_pow_pos _)
  have scaled := Nat.mul_le_mul_right (2 ^ (8 - codeLen)) small
  rw [whole, Nat.add_mul, Nat.one_mul] at scaled
  rw [leaf_start short, Nat.one_shiftLeft]
  exact scaled

/-- A string that neither starts nor continues any string stored. -/
def Apart (entries : List Bool → UInt8 → Prop) (bits : List Bool) : Prop :=
  ∀ other symbol, entries other symbol → ¬other <+: bits ∧ ¬bits <+: other

def withEntry (entries : List Bool → UInt8 → Prop) (bits : List Bool) (sym : UInt8) :
    List Bool → UInt8 → Prop :=
  fun other symbol => entries other symbol ∨ other = bits ∧ symbol = sym

/-- The second half of `_hf_add_node`: at most eight bits are left. -/
theorem add_leaf_holds {sym : UInt8} {code codeLen : Nat} (short : codeLen ≤ 8) {n : Node}
    {entries : List Bool → UInt8 → Prop} (holds : Holds n entries)
    (apart : Apart entries (natBits codeLen code)) :
    Holds (hfAddNode n sym code codeLen) (withEntry entries (natBits codeLen code) sym) := by
  obtain ⟨children, nodeSym, nodeCode, nodeLen, size, entries, counted, leaf, inner, absent⟩ := holds
  rw [hfAddNode, if_neg (Nat.not_lt.mpr short), fill_leaves_eq _ _ _ _ _ _ _ _ _ _
    (leaf_range_end short)]
  simp only [leaf_range_iff short]
  -- an index under the new leaf leads nowhere yet
  have vacant (index : UInt8) (under : natBits codeLen code <+: byteBits index) :
      children index = .null := by
    apply absent
    intro bits symbol entry
    obtain ⟨notBefore, notBehind⟩ := apart bits symbol entry
    constructor
    · intro starts
      rcases List.prefix_or_prefix_of_prefix starts under with before | behind
      · exact notBefore before
      · exact notBehind behind
    · intro continues
      exact notBehind (under.trans continues)
  apply Holds.intro
  · intro _ _ _ _
    rw [Nat.one_shiftLeft]
    exact Nat.lt_of_lt_of_le (Nat.two_pow_pos _) (Nat.le_add_left _ _)
  · intro bits symbol index entry starts
    rcases entry with old | ⟨rfl, rfl⟩
    · have outside : ¬natBits codeLen code <+: byteBits index := by
        intro under
        rcases List.prefix_or_prefix_of_prefix starts under with before | behind
        · exact (apart bits symbol old).1 before
        · exact (apart bits symbol old).2 behind
      rw [if_neg outside]
      exact leaf bits symbol index old starts
    · rw [if_pos starts, vacant index starts, nat_bits_length]
      exact ⟨code, rfl⟩
  · intro index bits symbol entry some
    have older : ∀ bits symbol, bits ≠ [] →
        (withEntry entries (natBits codeLen code) sym (byteBits index ++ bits) symbol ↔
          entries (byteBits index ++ bits) symbol) := by
      intro bits symbol some
      constructor
      · rintro (old | ⟨same, _⟩)
        · exact old
        · have lengths := congrArg List.length same
          rw [List.length_append, byte_bits_length, nat_bits_length] at lengths
          have positive := List.length_pos_iff.mpr some
          omega
      · exact .inl
    have old := (older bits symbol some).mp entry
    have outside : ¬natBits codeLen code <+: byteBits index := fun under =>
      (apart _ symbol old).2 (under.trans (List.prefix_append _ _))
    have same : (fun bits symbol =>
        withEntry entries (natBits codeLen code) sym (byteBits index ++ bits) symbol ∧ bits ≠ []) =
        fun bits symbol => entries (byteBits index ++ bits) symbol ∧ bits ≠ [] := by
      funext bits symbol
      exact propext (and_congr_left (older bits symbol))
    rw [if_neg outside, same]
    exact inner index bits symbol old some
  · intro index nothing
    have outside : ¬natBits codeLen code <+: byteBits index :=
      (nothing _ sym (.inr ⟨rfl, rfl⟩)).1
    rw [if_neg outside]
    exact absent index fun bits symbol old => nothing bits symbol (.inl old)

/-- One child of a node, made if it is missing: it holds what lies below its index. -/
theorem child_or_create_holds {children : UInt8 → Node} {index : UInt8}
    {entries : List Bool → UInt8 → Prop}
    (inner : ∀ bits symbol, entries (byteBits index ++ bits) symbol → bits ≠ [] →
      Holds (children index) fun bits symbol =>
        entries (byteBits index ++ bits) symbol ∧ bits ≠ [])
    (absent : (∀ bits symbol, entries bits symbol →
      ¬bits <+: byteBits index ∧ ¬byteBits index <+: bits) → children index = .null)
    (noLeaf : ∀ bits symbol, entries bits symbol → ¬bits <+: byteBits index) :
    Holds (children index).orCreate fun bits symbol =>
      entries (byteBits index ++ bits) symbol ∧ bits ≠ [] := by
  by_cases present : ∃ bits symbol, entries (byteBits index ++ bits) symbol ∧ bits ≠ []
  · obtain ⟨bits, symbol, entry, some⟩ := present
    have held := inner bits symbol entry some
    cases found : children index with
    | null =>
        rw [found] at held
        cases held
    | node grandchildren sym code codeLen size =>
        rw [found] at held
        exact held
  · have missing : children index = .null := by
      apply absent
      intro bits symbol entry
      refine ⟨noLeaf bits symbol entry, ?_⟩
      rintro ⟨rest, rfl⟩
      apply present
      refine ⟨rest, symbol, entry, ?_⟩
      rintro rfl
      rw [List.append_nil] at entry
      exact noLeaf _ symbol entry (List.prefix_refl _)
    rw [missing]
    apply holds_create
    intro bits symbol entry
    exact present ⟨bits, symbol, entry⟩

theorem add_node_holds (sym : UInt8) (code codeLen : Nat) (positive : 0 < codeLen) :
    ∀ (n : Node) (entries : List Bool → UInt8 → Prop), Holds n entries →
      Apart entries (natBits codeLen code) →
      Holds (hfAddNode n sym code codeLen) (withEntry entries (natBits codeLen code) sym) := by
  induction codeLen using Nat.strongRecOn with
  | ind codeLen induction =>
      intro n entries holds apart
      by_cases long : 8 < codeLen
      · obtain ⟨children, nodeSym, nodeCode, nodeLen, size, entries, counted, leaf, inner,
          absent⟩ := holds
        rw [hfAddNode, if_pos long]
        simp only [Node.child, Node.setChild]
        have split : natBits codeLen code =
            byteBits (UInt8.ofNat (code >>> (codeLen - 8))) ++ natBits (codeLen - 8) code := by
          rw [byte_bits_of_nat, Nat.shiftRight_eq_div_pow, ← nat_bits_add,
            Nat.add_sub_cancel' (Nat.le_of_lt long)]
        have restSome : natBits (codeLen - 8) code ≠ [] := by
          apply List.length_pos_iff.mp
          rw [nat_bits_length]
          omega
        generalize UInt8.ofNat (code >>> (codeLen - 8)) = first at split ⊢
        rw [split] at apart ⊢
        have noLeaf : ∀ bits symbol, entries bits symbol → ¬bits <+: byteBits first := by
          intro bits symbol entry starts
          exact (apart bits symbol entry).1 (starts.trans (List.prefix_append _ _))
        have childHolds := child_or_create_holds (inner first) (absent first) noLeaf
        have childApart : Apart (fun bits symbol => entries (byteBits first ++ bits) symbol ∧
            bits ≠ []) (natBits (codeLen - 8) code) := by
          intro bits symbol entry
          have whole := apart _ symbol entry.1
          rwa [List.prefix_append_right_inj, List.prefix_append_right_inj] at whole
        have added := induction (codeLen - 8) (by omega) (by omega) _ _ childHolds childApart
        apply Holds.intro
        · intro bits symbol entry near
          rcases entry with old | ⟨rfl, _⟩
          · exact counted bits symbol old near
          · rw [List.length_append, byte_bits_length, nat_bits_length] at near
            omega
        · intro bits symbol index entry starts
          rcases entry with old | ⟨rfl, _⟩
          · have other : index ≠ first := by
              rintro rfl
              exact noLeaf bits symbol old starts
            rw [Function.update_of_ne other]
            exact leaf bits symbol index old starts
          · have lengths := starts.length_le
            rw [List.length_append, byte_bits_length, byte_bits_length, nat_bits_length] at lengths
            omega
        · intro index bits symbol entry some
          by_cases here : index = first
          · subst here
            rw [Function.update_self]
            have same : (fun bits symbol => withEntry entries
                (byteBits index ++ natBits (codeLen - 8) code) sym (byteBits index ++ bits) symbol ∧
                bits ≠ []) = withEntry (fun bits symbol =>
                  entries (byteBits index ++ bits) symbol ∧ bits ≠ [])
                  (natBits (codeLen - 8) code) sym := by
              funext bits symbol
              apply propext
              simp only [withEntry, List.append_cancel_left_eq]
              constructor
              · rintro ⟨old | added, some⟩
                · exact .inl ⟨old, some⟩
                · exact .inr added
              · rintro (⟨old, some⟩ | ⟨rfl, rfl⟩)
                · exact ⟨.inl old, some⟩
                · exact ⟨.inr ⟨rfl, rfl⟩, restSome⟩
            rw [same]
            exact added
          · have older (bits : List Bool) (symbol : UInt8) :
                withEntry entries (byteBits first ++ natBits (codeLen - 8) code) sym
                  (byteBits index ++ bits) symbol ↔ entries (byteBits index ++ bits) symbol := by
              constructor
              · rintro (old | ⟨same, _⟩)
                · exact old
                · have heads := List.append_inj_left same (by simp)
                  exact absurd (byte_bits_inj heads) here
              · exact .inl
            rw [Function.update_of_ne here]
            simp only [older] at entry ⊢
            exact inner index bits symbol entry some
        · intro index nothing
          have other : index ≠ first := by
            rintro rfl
            exact (nothing _ sym (.inr ⟨rfl, rfl⟩)).2 (List.prefix_append _ _)
          rw [Function.update_of_ne other]
          exact absent index fun bits symbol old => nothing bits symbol (.inl old)
      · exact add_leaf_holds (Nat.not_lt.mp long) holds apart

theorem add_nodes_hold (symbols : List UInt8) (unique : symbols.Nodup) :
    ∀ (n : Node) (known : List UInt8), (∀ symbol ∈ symbols, symbol ∉ known) →
      Holds n (fun bits symbol => symbol ∈ known ∧ bits = codeBits symbol) →
      Holds (symbols.foldl (fun root i => hfAddNode root i (hfCode i) (hfCodeLen i)) n)
        fun bits symbol => (symbol ∈ known ∨ symbol ∈ symbols) ∧ bits = codeBits symbol := by
  induction symbols with
  | nil =>
      intro n known _ holds
      simpa only [List.foldl_nil, List.not_mem_nil, or_false] using holds
  | cons first rest induction =>
      intro n known fresh holds
      obtain ⟨notLater, restUnique⟩ := List.nodup_cons.mp unique
      have bounds := hf_code_bounds first
      have apart : Apart (fun bits symbol => symbol ∈ known ∧ bits = codeBits symbol)
          (codeBits first) := by
        rintro bits symbol ⟨member, rfl⟩
        have different : symbol ≠ first := by
          rintro rfl
          exact fresh symbol List.mem_cons_self member
        constructor
        · intro starts
          exact different (code_prefix_free symbol first starts)
        · intro starts
          exact different (code_prefix_free first symbol starts).symm
      have added := add_node_holds first (hfCode first) (hfCodeLen first) (by omega) n _ holds apart
      have same : withEntry (fun bits symbol => symbol ∈ known ∧ bits = codeBits symbol)
          (codeBits first) first =
            fun bits symbol => symbol ∈ first :: known ∧ bits = codeBits symbol := by
        funext bits symbol
        apply propext
        simp only [withEntry, List.mem_cons]
        constructor
        · rintro (⟨member, rfl⟩ | ⟨rfl, rfl⟩)
          · exact ⟨.inr member, rfl⟩
          · exact ⟨.inl rfl, rfl⟩
        · rintro ⟨rfl | member, rfl⟩
          · exact .inr ⟨rfl, rfl⟩
          · exact .inl ⟨member, rfl⟩
      have freshRest : ∀ symbol ∈ rest, symbol ∉ first :: known := by
        intro symbol member inKnown
        rcases List.mem_cons.mp inKnown with rfl | older
        · exact notLater member
        · exact fresh symbol (List.mem_cons_of_mem _ member) older
      rw [← codeBits, same] at added
      have all := induction restUnique _ (first :: known) freshRest added
      simpa only [List.foldl_cons, List.mem_cons, or_assoc, or_left_comm] using all

/-- What remains of the codes that start with `path`. -/
def Below (path bits : List Bool) (symbol : UInt8) : Prop :=
  codeBits symbol = path ++ bits ∧ bits ≠ []

theorem code_bits_ne_nil (symbol : UInt8) : codeBits symbol ≠ [] := by
  apply List.length_pos_iff.mp
  rw [code_bits_length]
  have bounds := hf_code_bounds symbol
  omega

theorem hf_init_holds : Holds hfInit (Below []) := by
  have unique : ((List.range 256).map UInt8.ofNat).Nodup := by
    apply List.Nodup.map_on _ List.nodup_range
    intro first firstIn second secondIn same
    have value := congrArg UInt8.toNat same
    rwa [UInt8.toNat_ofNat', UInt8.toNat_ofNat', Nat.mod_eq_of_lt (List.mem_range.mp firstIn),
      Nat.mod_eq_of_lt (List.mem_range.mp secondIn)] at value
  have all := add_nodes_hold _ unique Node.create [] (fun _ _ => List.not_mem_nil)
    (holds_create fun bits symbol entry => List.not_mem_nil entry.1)
  have member (symbol : UInt8) : symbol ∈ (List.range 256).map UInt8.ofNat :=
    List.mem_map.mpr ⟨symbol.toNat, List.mem_range.mpr symbol.toNat_lt, UInt8.ofNat_toNat⟩
  have same : (fun bits symbol =>
      (symbol ∈ ([] : List UInt8) ∨ symbol ∈ (List.range 256).map UInt8.ofNat) ∧
        bits = codeBits symbol) = Below [] := by
    funext bits symbol
    apply propext
    simp only [Below, List.nil_append]
    constructor
    · rintro ⟨_, rfl⟩
      exact ⟨rfl, code_bits_ne_nil symbol⟩
    · rintro ⟨same, _⟩
      exact ⟨.inr (member symbol), same.symm⟩
  rw [same] at all
  unfold hfInit
  exact all

/-- What a child of a node on the path of some code can be. -/
inductive ChildCase (path : List Bool) (index : UInt8) (child : Node) : Prop where
  | leaf (symbol : UInt8) (bits : List Bool) (code : Nat)
      (below : Below path bits symbol) (starts : bits <+: byteBits index)
      (found : child = .node (fun _ => .null) symbol code bits.length 0)
  | inner (children : UInt8 → Node) (sym : UInt8) (code codeLen size : Nat)
      (symbol : UInt8) (bits : List Bool) (below : Below (path ++ byteBits index) bits symbol)
      (found : child = .node children sym code codeLen size) (counted : 0 < size)
      (holds : Holds child (Below (path ++ byteBits index)))
  | absent (found : child = .null) (eos : eosBits <+: path ++ byteBits index)

/-- A code that starts a string running past `path` itself runs past `path`, when some code
does. -/
theorem code_past_path {path tail : List Bool} {symbol other : UInt8} {bits : List Bool}
    (below : Below path bits other) (starts : codeBits symbol <+: path ++ tail) :
    ∃ rest, Below path rest symbol ∧ rest <+: tail := by
  have longer : ¬codeBits symbol <+: path := by
    intro inside
    have same := code_prefix_free symbol other
      (inside.trans (by rw [below.1]; exact List.prefix_append _ _))
    subst same
    have lengths := inside.length_le
    rw [below.1, List.length_append] at lengths
    have positive := List.length_pos_iff.mpr below.2
    omega
  rcases List.prefix_or_prefix_of_prefix starts (List.prefix_append path tail) with inside | past
  · exact absurd inside longer
  · obtain ⟨rest, split⟩ := past
    refine ⟨rest, ⟨split.symm, ?_⟩, ?_⟩
    · rintro rfl
      rw [List.append_nil] at split
      rw [split] at longer
      exact longer (List.prefix_refl _)
    · rw [← split] at starts
      exact (List.prefix_append_right_inj path).mp starts

theorem eos_of_no_code {path : List Bool} {symbol index : UInt8} {bits : List Bool}
    (below : Below path bits symbol)
    (nothing : ∀ bits symbol, Below path bits symbol →
      ¬bits <+: byteBits index ∧ ¬byteBits index <+: bits) :
    eosBits <+: path ++ byteBits index := by
  have noCode (padding : List Bool) (other : UInt8) :
      ¬codeBits other <+: path ++ (byteBits index ++ padding) := by
    intro starts
    obtain ⟨rest, restBelow, inside⟩ := code_past_path below starts
    rcases List.prefix_or_prefix_of_prefix inside (List.prefix_append _ padding) with
      before | behind
    · exact (nothing rest other restBelow).1 before
    · exact (nothing rest other restBelow).2 behind
  by_cases long : 30 ≤ (path ++ byteBits index).length
  · have whole : ((path ++ byteBits index).take 30).length = 30 := by
      rw [List.length_take, Nat.min_eq_left long]
    rcases code_or_eos whole with ⟨other, starts⟩ | eos
    · have inside := starts.trans (List.take_prefix _ _)
      exact absurd (by rwa [List.append_nil]) (noCode [] other)
    · rw [← eos]
      exact List.take_prefix _ _
  · have whole : (path ++ (byteBits index ++
        List.replicate (30 - (path ++ byteBits index).length) false)).length = 30 := by
      rw [← List.append_assoc, List.length_append, List.length_replicate]
      omega
    rcases code_or_eos whole with ⟨other, starts⟩ | eos
    · exact absurd starts (noCode _ other)
    · -- the padding ends in a zero, EOS does not
      have member : false ∈ eosBits := by
        rw [← eos]
        apply List.mem_append_right
        apply List.mem_append_right
        rw [List.mem_replicate]
        exact ⟨by omega, rfl⟩
      rw [eosBits, List.mem_replicate] at member
      cases member.2

theorem below_append (path : List Bool) (index : UInt8) :
    (fun bits symbol => Below path (byteBits index ++ bits) symbol ∧ bits ≠ []) =
      Below (path ++ byteBits index) := by
  funext bits symbol
  apply propext
  unfold Below
  rw [List.append_assoc]
  constructor
  · rintro ⟨⟨same, _⟩, some⟩
    exact ⟨same, some⟩
  · rintro ⟨same, some⟩
    refine ⟨⟨same, ?_⟩, some⟩
    intro empty
    exact some (List.append_eq_nil_iff.mp empty).2

theorem inner_counted {n : Node} {path : List Bool} {symbol : UInt8} {bits : List Bool}
    (holds : Holds n (Below path)) (below : Below path bits symbol) (whole : 8 ∣ path.length) :
    ∃ children sym code codeLen size, n = .node children sym code codeLen size ∧ 0 < size := by
  obtain ⟨bytes, lengthEq⟩ := whole
  have starts : path <+: codeBits symbol := by
    rw [below.1]
    exact List.prefix_append _ _
  have more : path.length < hfCodeLen symbol := by
    rw [← code_bits_length, below.1, List.length_append]
    have positive := List.length_pos_iff.mpr below.2
    omega
  obtain ⟨sibling, ⟨rest, split⟩, longer, near⟩ := sibling_bits starts lengthEq more
  rw [← code_bits_length, ← split, List.length_append] at longer near
  have restBelow : Below path rest sibling := by
    refine ⟨split.symm, ?_⟩
    apply List.length_pos_iff.mp
    omega
  obtain ⟨children, sym, code, codeLen, size, entries, counted, _, _, _⟩ := holds
  exact ⟨children, sym, code, codeLen, size, rfl, counted rest sibling restBelow (by omega)⟩

theorem child_case {n : Node} {path : List Bool} {symbol : UInt8} {bits : List Bool}
    (holds : Holds n (Below path)) (below : Below path bits symbol) (whole : 8 ∣ path.length)
    (index : UInt8) : ChildCase path index (n.child index) := by
  obtain ⟨children, nodeSym, nodeCode, nodeLen, size, entries, counted, leaf, inner, absent⟩ := holds
  by_cases nothing : ∀ bits symbol, Below path bits symbol →
      ¬bits <+: byteBits index ∧ ¬byteBits index <+: bits
  · exact .absent (absent index nothing) (eos_of_no_code below nothing)
  · obtain ⟨bits, symbol, found, compared⟩ : ∃ bits symbol, Below path bits symbol ∧
        (bits <+: byteBits index ∨ byteBits index <+: bits) := by
      by_contra none
      apply nothing
      intro bits symbol entry
      constructor
      · exact fun before => none ⟨bits, symbol, entry, .inl before⟩
      · exact fun behind => none ⟨bits, symbol, entry, .inr behind⟩
    by_cases before : bits <+: byteBits index
    · obtain ⟨code, isLeaf⟩ := leaf bits symbol index found before
      exact .leaf symbol bits code found before isLeaf
    · obtain ⟨rest, rfl⟩ := compared.resolve_left before
      have some : rest ≠ [] := by
        rintro rfl
        rw [List.append_nil] at before
        exact before (List.prefix_refl _)
      have further : Below (path ++ byteBits index) rest symbol := by
        refine ⟨?_, some⟩
        rw [found.1, List.append_assoc]
      have held := inner index rest symbol found some
      rw [below_append] at held
      have size := inner_counted held further (by
        rw [List.length_append, byte_bits_length]
        exact (Nat.dvd_add_right whole).mpr (Nat.dvd_refl 8))
      obtain ⟨grandchildren, sym, code, codeLen, count, isNode, counted⟩ := size
      exact .inner grandchildren sym code codeLen count symbol rest further isNode counted held

end ChatServer.Http2
