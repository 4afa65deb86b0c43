import LighttpdFuzz.Connection

/-!
# Handlers that follow their stream

A handler that reads exact amounts only is `Streaming`: give it the same
stream, divided in another way and perhaps with more behind it, and it
does the same, or it runs out of the shorter stream in the middle of what
it does on the longer one. What it writes never depends on what has not
arrived yet.

The handlers that read exactly, write, note and raise are streaming, and
so is what is made of them by sequencing.
-/

namespace Connection

variable {ν α β : Type}

/-- The same connection, with more to come, divided in any way. -/
structure Extends (more : Bytes) (c c' : Connection ν) : Prop where
  incoming : c'.incoming = c.incoming ++ more
  written : c'.written = c.written
  noted : c'.noted = c.noted

theorem Extends.fresh (stream more : Bytes) (cuts accepts cuts' accepts' : List Nat) :
    Extends more (fresh stream cuts accepts : Connection ν)
      (fresh (stream ++ more) cuts' accepts') := ⟨rfl, rfl, rfl⟩

/-- What one run has done is the beginning of what the other has done. -/
structure Behind (c c' : Connection ν) : Prop where
  written : c.written <+: c'.written
  noted : c.noted <+: c'.noted

theorem Behind.refl (c : Connection ν) : Behind c c :=
  ⟨List.prefix_refl _, List.prefix_refl _⟩

theorem Behind.trans {c₁ c₂ c₃ : Connection ν} (h : Behind c₁ c₂) (h' : Behind c₂ c₃) :
    Behind c₁ c₃ :=
  ⟨h.written.trans h'.written, h.noted.trans h'.noted⟩

theorem Extends.behind {more : Bytes} {c c' : Connection ν} (h : Extends more c c') :
    Behind c c' :=
  ⟨h.written ▸ List.prefix_refl _, h.noted ▸ List.prefix_refl _⟩

/-- How a run on a stream and a run on a continuation of it may compare. -/
inductive Follows (more : Bytes) :
    Except PyException α × Connection ν → Except PyException α × Connection ν → Prop
  | same {result : Except PyException α} {c c' : Connection ν} :
      Extends more c c' → Follows more (result, c) (result, c')
  | short {result : Except PyException α} {c c' : Connection ν} :
      more ≠ [] → c.incoming = [] → Behind c c' → Follows more (.error .eofError, c) (result, c')

structure Streaming (h : Handler ν α) : Prop where
  grows : ∀ c, Behind c (h c).2
  follows : ∀ {more c c'}, Extends more c c' → Follows more (h c) (h c')

/-! ## What is streaming -/

theorem Streaming.pure (a : α) : Streaming (pure a : Handler ν α) where
  grows := Behind.refl
  follows := .same

theorem Streaming.throw (e : PyException) : Streaming (throw e : Handler ν α) where
  grows := Behind.refl
  follows := .same

theorem Streaming.note (n : ν) : Streaming (note n) where
  grows _ := ⟨List.prefix_refl _, List.prefix_append _ _⟩
  follows h := .same ⟨h.incoming, h.written, congrArg (· ++ [n]) h.noted⟩

theorem Streaming.sendall (data : Bytes) : Streaming (sendall data : Handler ν Unit) where
  grows _ := ⟨List.prefix_append _ _, List.prefix_refl _⟩
  follows h := .same ⟨h.incoming, congrArg (· ++ data) h.written, h.noted⟩

theorem Streaming.sendPieces {piece : Nat} (hpiece : 0 < piece) (data : Bytes) :
    Streaming (sendPieces piece data : Handler ν Unit) where
  grows c := by
    obtain ⟨accepts, h⟩ := sendPieces_eq hpiece _ (Eq.refl data.length) c
    rw [h]
    exact ⟨List.prefix_append _ _, List.prefix_refl _⟩
  follows {more c c'} hextends := by
    obtain ⟨accepts, h⟩ := sendPieces_eq hpiece _ (Eq.refl data.length) c
    obtain ⟨accepts', h'⟩ := sendPieces_eq hpiece _ (Eq.refl data.length) c'
    rw [h, h']
    exact .same ⟨hextends.incoming, congrArg (· ++ data) hextends.written, hextends.noted⟩

theorem Streaming.recvExact (size : Nat) : Streaming (recvExact size : Handler ν Bytes) where
  grows c := by
    by_cases hlen : size ≤ c.incoming.length
    · obtain ⟨cuts, h⟩ := recvExact_eq size hlen
      rw [h]
      exact ⟨List.prefix_refl _, List.prefix_refl _⟩
    · obtain ⟨cuts, h⟩ := recvExact_short size (Nat.lt_of_not_le hlen)
      rw [h]
      exact ⟨List.prefix_refl _, List.prefix_refl _⟩
  follows {more c c'} hextends := by
    have hincoming := hextends.incoming
    have hlonger : c'.incoming.length = c.incoming.length + more.length := by
      rw [hincoming, List.length_append]
    by_cases hlen : size ≤ c.incoming.length
    · obtain ⟨cuts, h⟩ := recvExact_eq size hlen
      obtain ⟨cuts', h'⟩ := recvExact_eq size (c := c') (by omega)
      rw [h, h', hincoming, List.take_append_of_le_length hlen,
        List.drop_append_of_le_length hlen]
      exact .same ⟨rfl, hextends.written, hextends.noted⟩
    · obtain ⟨cuts, h⟩ := recvExact_short size (Nat.lt_of_not_le hlen)
      rw [h]
      by_cases hmore : more = []
      · obtain ⟨cuts', h'⟩ := recvExact_short size (c := c') (by simp [hlonger, hmore]; omega)
        rw [h']
        exact .same ⟨by simp [hmore], hextends.written, hextends.noted⟩
      · refine .short hmore rfl ?_
        by_cases hlen' : size ≤ c'.incoming.length
        · obtain ⟨cuts', h'⟩ := recvExact_eq size hlen'
          rw [h']
          exact ⟨hextends.behind.written, hextends.behind.noted⟩
        · obtain ⟨cuts', h'⟩ := recvExact_short size (Nat.lt_of_not_le hlen')
          rw [h']
          exact ⟨hextends.behind.written, hextends.behind.noted⟩

/-- One handler after the other. -/
theorem Streaming.bind {x : Handler ν α} {f : α → Handler ν β} (hx : Streaming x)
    (hf : ∀ a, Streaming (f a)) : Streaming (x >>= f) where
  grows c := by
    have hfirst := hx.grows c
    cases hrun : x c with
    | mk result c₁ =>
        rw [hrun] at hfirst
        cases result with
        | error e =>
            rw [bind_error hrun]
            exact hfirst
        | ok a =>
            rw [bind_ok hrun]
            exact hfirst.trans ((hf a).grows c₁)
  follows {more c c'} hextends := by
    have hfirst := hx.follows hextends
    cases hrun : x c with
    | mk result c₁ =>
        cases hrun' : x c' with
        | mk result' c₁' =>
            rw [hrun, hrun'] at hfirst
            cases hfirst with
            | same hnext =>
                cases result with
                | error e =>
                    rw [bind_error hrun, bind_error hrun']
                    exact .same hnext
                | ok a =>
                    rw [bind_ok hrun, bind_ok hrun']
                    exact (hf a).follows hnext
            | short hmore hempty hbehind =>
                rw [bind_error hrun]
                cases result' with
                | error e =>
                    rw [bind_error hrun']
                    exact .short hmore hempty hbehind
                | ok a =>
                    rw [bind_ok hrun']
                    have hlater := (hf a).grows c₁'
                    cases hrest : f a c₁' with
                    | mk result'' c₂' =>
                        rw [hrest] at hlater
                        exact .short hmore hempty (hbehind.trans hlater)

theorem Streaming.ite {p : Prop} [Decidable p] {x y : Handler ν α} (hx : Streaming x)
    (hy : Streaming y) : Streaming (if p then x else y) := by
  split
  · exact hx
  · exact hy

/-! ## Runs from the beginning -/

/-- The result and the output of a streaming handler, on a stream and on a
continuation of it. -/
theorem Streaming.run {h : Handler ν α} (hh : Streaming h) (stream more : Bytes)
    (cuts accepts cuts' accepts' : List Nat) :
    (h (fresh stream cuts accepts)).2.written
        <+: (h (fresh (stream ++ more) cuts' accepts')).2.written
      ∧ ((h (fresh stream cuts accepts)).1 = (h (fresh (stream ++ more) cuts' accepts')).1
          ∧ (h (fresh stream cuts accepts)).2.written
            = (h (fresh (stream ++ more) cuts' accepts')).2.written
        ∨ more ≠ [] ∧ (h (fresh stream cuts accepts)).1 = .error .eofError) := by
  have hfollows := hh.follows (Extends.fresh stream more cuts accepts cuts' accepts')
  generalize h (fresh stream cuts accepts) = r, h (fresh (stream ++ more) cuts' accepts') = r'
    at hfollows
  cases hfollows with
  | same hextends => exact ⟨hextends.behind.written, .inl ⟨rfl, hextends.written.symm⟩⟩
  | short hmore _ hbehind => exact ⟨hbehind.written, .inr ⟨hmore, rfl⟩⟩

end Connection
