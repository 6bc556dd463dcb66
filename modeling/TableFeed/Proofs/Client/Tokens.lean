import Mathlib
import TableFeed.Proofs.Encoder.Responses
/-!
The tokens of a client's requests. They are counted up, so that no two are the same before the
counter comes round, and none is zero. Every request that is out is awaited until its answer is in,
and there is one answer to each.
-/

namespace TableFeed

/-! ### Counters -/

theorem Int64.ofNat_injective {n k : Nat} (hn : n < 2 ^ 64) (hk : k < 2 ^ 64)
    (h : Int64.ofNat n = Int64.ofNat k) : n = k := by
  have hbits : n % 2 ^ 64 = k % 2 ^ 64 := congrArg (·.toBitVec.toNat) h
  rwa [Nat.mod_eq_of_lt hn, Nat.mod_eq_of_lt hk] at hbits

def tokens (n : Nat) : List Int64 := (List.range n).map fun k => Int64.ofNat (k + 1)

theorem tokens_succ (n : Nat) : tokens (n + 1) = tokens n ++ [Int64.ofNat (n + 1)] := by
  rw [tokens, List.range_succ, List.map_append]
  rfl

theorem mem_tokens {n : Nat} {token : Int64} :
    token ∈ tokens n ↔ ∃ k, k < n ∧ Int64.ofNat (k + 1) = token := by
  simp [tokens]

/-- A number that has not been reached. -/
theorem ofNat_not_mem_tokens {n k : Nat} (hn : n < 2 ^ 64) (hk : k < 2 ^ 64)
    (hout : k = 0 ∨ n < k) : Int64.ofNat k ∉ tokens n := by
  rw [mem_tokens]
  rintro ⟨j, hj, heq⟩
  have hsame := Int64.ofNat_injective (by omega) hk heq
  omega

theorem nodup_tokens {n : Nat} (hn : n < 2 ^ 64) : (tokens n).Nodup := by
  induction n with
  | zero => exact List.nodup_nil
  | succ n ih =>
      rw [tokens_succ, List.nodup_append]
      refine ⟨ih (by omega), List.nodup_singleton _, fun a ha b hb => ?_⟩
      rw [List.mem_singleton.mp hb]
      rintro rfl
      exact ofNat_not_mem_tokens (by omega) hn (.inr (by omega)) ha

/-! ### Ledgers -/

def replyTokens (rs : List Response) : List Int64 :=
  (rs.filter fun r => r.type = .message ∧ r.token ≠ 0).map (·.token)

theorem mem_replyTokens {rs : List Response} {token : Int64} :
    token ∈ replyTokens rs ↔ ∃ r ∈ rs, r.type = .message ∧ token ≠ 0 ∧ r.token = token := by
  simp only [replyTokens, List.mem_map, List.mem_filter, decide_eq_true_eq]
  constructor
  · rintro ⟨r, ⟨hr, htype, hzero⟩, rfl⟩
    exact ⟨r, hr, htype, hzero, rfl⟩
  · rintro ⟨r, hr, htype, hzero, rfl⟩
    exact ⟨r, ⟨hr, htype, hzero⟩, rfl⟩

theorem replyTokens_append (rs rs' : List Response) :
    replyTokens (rs ++ rs') = replyTokens rs ++ replyTokens rs' := by
  rw [replyTokens, List.filter_append, List.map_append]
  rfl

theorem replyTokens_cons {r : Response} (hmessage : r.type = .message) (hzero : r.token ≠ 0)
    (rs : List Response) : replyTokens (r :: rs) = r.token :: replyTokens rs := by
  simp [replyTokens, hmessage, hzero]

/-- What sinks send answers no request. -/
theorem replyTokens_fromSink {rs : List Response} {limit : Nat}
    (hrs : ∀ r ∈ rs, r.FromSink r.subscription limit) : replyTokens rs = [] := by
  have hnone : rs.filter (fun r => r.type = .message ∧ r.token ≠ 0) = [] := by
    rw [List.filter_eq_nil_iff]
    intro r hr hreply
    obtain ⟨htype, hzero⟩ := of_decide_eq_true hreply
    have hfrom := hrs r hr
    generalize r.subscription = sub at hfrom
    cases hfrom with
    | schema layout => cases htype
    | rows carries fits =>
        have hcarries : (ResponseType.message).carriesRows = true := htype ▸ carries
        cases hcarries
    | failure he => exact hzero rfl
  rw [replyTokens, hnone]
  rfl

/-- The requests that are out and the answers that are under way, against what the client awaits and
what it has asked for so far. -/
structure Ledger (pending : AscMap Int64 RequestType) (next : Int64) (asked : List Request)
    (said : List Response) (issued : List (Int64 × RequestType)) : Prop where
  numbered : issued.map (·.1) = tokens issued.length
  next : next = Int64.ofNat (issued.length + 1)
  known : ∀ token type, pending.find? token = some type → (token, type) ∈ issued
  awaited : ∀ a ∈ asked, pending.find? a.token = some a.type
  understood : ∀ a ∈ asked, ∀ code, a.type ≠ .unknown code
  answers : ∀ token ∈ replyTokens said, ∃ type, pending.find? token = some type
  once : (replyTokens said ++ asked.map (·.token)).Nodup

namespace Ledger

variable {pending : AscMap Int64 RequestType} {next : Int64} {asked : List Request}
  {said : List Response} {issued : List (Int64 × RequestType)} {a : Request} {r : Response}

/-- No request has token zero. -/
theorem not_issued_zero (hl : Ledger pending next asked said issued)
    (hlen : issued.length < 2 ^ 64) (type : RequestType) : (0, type) ∉ issued := by
  intro h
  have hmem : (0 : Int64) ∈ issued.map (·.1) := List.mem_map_of_mem h
  rw [hl.numbered] at hmem
  exact ofNat_not_mem_tokens hlen (by decide) (.inl rfl) hmem

/-- The next token is new. -/
theorem next_ne (hl : Ledger pending next asked said issued)
    (hlen : issued.length + 1 < 2 ^ 64) {token : Int64} {type : RequestType}
    (h : (token, type) ∈ issued) : next ≠ token := by
  rintro rfl
  have hmem : next ∈ issued.map (·.1) := List.mem_map_of_mem h
  rw [hl.numbered, hl.next] at hmem
  exact ofNat_not_mem_tokens (by omega) hlen (.inr (by omega)) hmem

theorem next_ne_zero (hl : Ledger pending next asked said issued)
    (hlen : issued.length + 1 < 2 ^ 64) : next ≠ 0 := by
  intro h
  rw [hl.next] at h
  cases Int64.ofNat_injective hlen (k := 0) (by decide) h

/-- A token stands for one request. -/
theorem unique (hl : Ledger pending next asked said issued) (hlen : issued.length < 2 ^ 64)
    {token : Int64} {type type' : RequestType} (h : (token, type) ∈ issued)
    (h' : (token, type') ∈ issued) : type = type' := by
  have hnodup : (issued.map (·.1)).Nodup := hl.numbered ▸ nodup_tokens hlen
  exact congrArg Prod.snd (List.inj_on_of_nodup_map hnodup h h' rfl)

theorem find?_zero (hl : Ledger pending next asked said issued) (hlen : issued.length < 2 ^ 64) :
    pending.find? 0 = none := by
  rcases h : pending.find? 0 with _ | type
  · rfl
  · exact absurd (hl.known 0 type h) (hl.not_issued_zero hlen type)

/-- Sinks say something. -/
theorem hear (hl : Ledger pending next asked said issued) {rs : List Response} {limit : Nat}
    (hrs : ∀ r ∈ rs, r.FromSink r.subscription limit) :
    Ledger pending next asked (said ++ rs) issued := by
  have hsame : replyTokens (said ++ rs) = replyTokens said := by
    rw [replyTokens_append, replyTokens_fromSink hrs, List.append_nil]
  exact ⟨hl.numbered, hl.next, hl.known, hl.awaited, hl.understood, hsame ▸ hl.answers,
    hsame ▸ hl.once⟩

/-- A request is answered. -/
theorem append_answer (hl : Ledger pending next (a :: asked) said issued)
    (hlen : issued.length < 2 ^ 64)
    (success : Bool) (text : String) {rs : List Response} {limit : Nat}
    (hrs : ∀ r ∈ rs, r.FromSink r.subscription limit) :
    Ledger pending next asked
      (said ++ .message a.subscription a.token success text :: rs) issued := by
  have hawaited := hl.awaited a List.mem_cons_self
  have hzero : a.token ≠ 0 := by
    intro h
    rw [h] at hawaited
    exact hl.not_issued_zero hlen _ (hl.known _ _ hawaited)
  have htokens : replyTokens (said ++ .message a.subscription a.token success text :: rs) =
      replyTokens said ++ [a.token] := by
    rw [replyTokens_append, replyTokens_cons rfl hzero, replyTokens_fromSink hrs]
    rfl
  refine ⟨hl.numbered, hl.next, hl.known, fun b hb => hl.awaited b (List.mem_cons_of_mem a hb),
    fun b hb => hl.understood b (List.mem_cons_of_mem a hb), fun token htoken => ?_, ?_⟩
  · rw [htokens, List.mem_append, List.mem_singleton] at htoken
    rcases htoken with htoken | rfl
    · exact hl.answers token htoken
    · exact ⟨a.type, hawaited⟩
  · rw [htokens, List.append_assoc]
    exact hl.once

/-- An answer arrives: all that is still awaited, or on its way, was asked for by another
request. -/
theorem ne_token (hl : Ledger pending next asked (r :: said) issued)
    (hlen : issued.length < 2 ^ 64) (hmessage : r.type = .message) {token : Int64}
    (htoken : token ∈ replyTokens said ++ asked.map (·.token)) : r.token ≠ token := by
  have hzero : token ≠ 0 := by
    rintro rfl
    rcases List.mem_append.mp htoken with htoken | htoken
    · obtain ⟨-, -, -, hne, -⟩ := mem_replyTokens.mp htoken
      exact hne rfl
    · obtain ⟨a, ha, hat⟩ := List.mem_map.mp htoken
      have hawaited := hl.awaited a ha
      rw [hat] at hawaited
      exact hl.not_issued_zero hlen _ (hl.known _ _ hawaited)
  rintro rfl
  have honce := hl.once
  rw [replyTokens_cons hmessage hzero, List.cons_append, List.nodup_cons] at honce
  exact honce.1 htoken

theorem dispatch (hl : Ledger pending next asked (r :: said) issued)
    (hlen : issued.length < 2 ^ 64) :
    Ledger (if r.type = .message then pending.erase r.token else pending) next asked said
      issued := by
  have hsuffix : ∀ token ∈ replyTokens said, token ∈ replyTokens (r :: said) := by
    intro token htoken
    obtain ⟨r', hr', hrest⟩ := mem_replyTokens.mp htoken
    exact mem_replyTokens.mpr ⟨r', List.mem_cons_of_mem r hr', hrest⟩
  have honce : (replyTokens said ++ asked.map (·.token)).Nodup := by
    have hsub : (replyTokens said).Sublist (replyTokens (r :: said)) :=
      ((List.sublist_cons_self r said).filter _).map _
    exact hl.once.sublist (hsub.append_right _)
  split
  next hmessage =>
    have hkept : ∀ token ∈ replyTokens said ++ asked.map (·.token),
        (pending.erase r.token).find? token = pending.find? token := by
      intro token htoken
      rw [AscMap.find?_erase, if_neg (hl.ne_token hlen hmessage htoken)]
    refine ⟨hl.numbered, hl.next, fun token type htoken => ?_, fun a ha => ?_, hl.understood,
      fun token htoken => ?_, honce⟩
    · rw [AscMap.find?_erase] at htoken
      split at htoken
      · cases htoken
      · exact hl.known token type htoken
    · rw [hkept _ (List.mem_append_right _ (List.mem_map_of_mem ha))]
      exact hl.awaited a ha
    · rw [hkept _ (List.mem_append_left _ htoken)]
      exact hl.answers token (hsuffix token htoken)
  next =>
    exact ⟨hl.numbered, hl.next, hl.known, hl.awaited, hl.understood,
      fun token htoken => hl.answers token (hsuffix token htoken), honce⟩

/-- A request is sent. -/
theorem send (hl : Ledger pending next asked said issued) (hlen : issued.length + 1 < 2 ^ 64)
    (htoken : a.token = next) (hunderstood : ∀ code, a.type ≠ .unknown code) :
    Ledger (pending.insert next a.type) (next + 1) (asked ++ [a]) said
      (issued ++ [(next, a.type)]) := by
  have hkept : ∀ token type, pending.find? token = some type →
      (pending.insert next a.type).find? token = some type := by
    intro token type h
    rw [AscMap.find?_insert, if_neg (hl.next_ne hlen (hl.known _ _ h)), h]
  refine ⟨?_, ?_, fun token type h => ?_, fun b hb => ?_, fun b hb => ?_, fun token h => ?_, ?_⟩
  · rw [List.map_append, hl.numbered, List.length_append, List.length_singleton, tokens_succ,
      ← hl.next]
    rfl
  · rw [List.length_append, List.length_singleton, hl.next]
    exact (Int64.ofNat_add _ _).symm
  · rw [AscMap.find?_insert] at h
    split at h
    next heq =>
      cases h
      exact heq ▸ List.mem_append_right _ (List.mem_singleton_self _)
    next => exact List.mem_append_left _ (hl.known token type h)
  · rcases List.mem_append.mp hb with hb | hb
    · exact hkept _ _ (hl.awaited b hb)
    · rw [List.mem_singleton.mp hb, htoken, AscMap.find?_insert, if_pos rfl]
  · rcases List.mem_append.mp hb with hb | hb
    · exact hl.understood b hb
    · exact List.mem_singleton.mp hb ▸ hunderstood
  · obtain ⟨type, htype⟩ := hl.answers token h
    exact ⟨type, hkept _ _ htype⟩
  · rw [List.map_append, ← List.append_assoc, List.nodup_append]
    refine ⟨hl.once, List.nodup_singleton _, fun token h token' h' => ?_⟩
    have hnext : token' = next := (List.mem_singleton.mp h').trans htoken
    rw [hnext]
    rcases List.mem_append.mp h with h | h
    · obtain ⟨type, htype⟩ := hl.answers token h
      exact (hl.next_ne hlen (hl.known _ _ htype)).symm
    · obtain ⟨b, hb, rfl⟩ := List.mem_map.mp h
      exact (hl.next_ne hlen (hl.known _ _ (hl.awaited b hb))).symm

end Ledger

end TableFeed
