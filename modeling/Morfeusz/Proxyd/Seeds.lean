import Morfeusz.Common.MTRand
import Morfeusz.Proxyd.Accounting

/-!
# The seeds of the connections

Each `Proxy_Socket` draws its seed in its constructor, from the one generator of the process,
and `open` sends it to the client in the clear. The digest with which a client proves that it
has logged on is made of this seed.

The seeds are the numbers of the generator in the order in which clients connected, so that
each of them from the 625th on is told by three before it
(`Morfeusz.Proxyd.seeds_predicted`): who has been sent these knows what a client that is yet
to connect will be sent.
-/

namespace Morfeusz.Proxyd

open ByteNumbers MersenneTwist

variable (sha : Sha1) (hmac : Hmac)

/-- `urand32`. -/
def urand32 (g : MersenneTwist) : Option (UInt32 × MersenneTwist) :=
  g.genrandInt32.map fun (y, g) => (y.toUInt32, g)

/-- The sockets of the daemon with the generator, what was drawn from it, and the packets
`open` has sent, both oldest first. -/
structure SeededServer where
  server : Server
  generator : MersenneTwist
  drawn : List UInt32
  challenges : List ByteBuffer

namespace SeededServer

/-- The daemon after its start, with a generator nobody has drawn from. -/
def init (service : ProxyService) (mt : Vector UInt64 N) (time : UInt64) : SeededServer where
  server := .init service
  generator := .new mt time
  drawn := []
  challenges := []

/-- A client connects: the constructor draws a seed, and `open` sends it where the socket is
admitted. -/
def accept (s : SeededServer) (f : Start) (registered : Bool) : Option SeededServer := do
  let (seed, generator) ← urand32 s.generator
  let server ← s.server.accept { f with seed } registered
  some
    { server
      generator
      drawn := s.drawn ++ [seed]
      challenges :=
        s.challenges ++ (server.conns.drop s.server.conns.length).flatMap Conn.packetQueue }

/-- One step of the daemon. -/
def step (s : SeededServer) : ServerEvent → Option SeededServer
  | .accept f registered => s.accept f registered
  | .conn i e => (s.server.onConn sha hmac i e).map fun server => { s with server }

end SeededServer

/-- The state a sequence of events takes the daemon to. -/
def seededRun (service : ProxyService) (mt : Vector UInt64 N) (time : UInt64)
    (es : List ServerEvent) : Option SeededServer :=
  Runs.run (SeededServer.step sha hmac) (SeededServer.init service mt time) es

/-- The seed a client reads out of `SMSG_AUTH_CHALLENGE`, behind the header. -/
def challengeSeed (pkt : ByteBuffer) : Option UInt32 :=
  (pkt.skip 4).readUint32.map Prod.fst

theorem challengeSeed_authChallenge (seed : UInt32) :
    challengeSeed (authChallenge seed) = some seed := by
  have hpeek : ((authChallenge seed).skip 4).peek 4 = ByteBuffer.uint32 seed := rfl
  have hsize : ((authChallenge seed).skip 4).rpos + 4 ≤ ((authChallenge seed).skip 4).size :=
    Nat.le_refl 8
  rw [challengeSeed, ByteBuffer.readUint32, ByteBuffer.readBytes, dif_pos hsize]
  have hval : UInt32.ofNat (leVal (((authChallenge seed).skip 4).peek 4)) = seed := by
    rw [hpeek, ByteBuffer.uint32, leVal_leBytes_of_lt seed.toNat_lt, UInt32.ofNat_toNat]
  exact congrArg some hval

/-- The seed that follows from three that were drawn before it. -/
def predictSeed (here next tap : UInt32) : UInt32 :=
  (predict here.toUInt64 next.toUInt64 tap.toUInt64).toUInt32

/-- The seed of the connection `k`. -/
def seedAt (time : UInt64) (k : ℕ) : UInt32 := (temper (words time (N + k))).toUInt32

/-- A number of the generator loses nothing when it is cut to a seed. -/
theorem toUInt64_seedAt (time : UInt64) (k : ℕ) :
    (seedAt time k).toUInt64 = temper (words time (N + k)) := by
  have hfits := (fits32_words time (N + k)).temper
  rw [← UInt64.toNat_inj, UInt32.toNat_toUInt64, seedAt, UInt64.toNat_toUInt32,
    Nat.mod_eq_of_lt hfits]

theorem seedAt_add (time : UInt64) (k : ℕ) :
    seedAt time (k + N) =
      predictSeed (seedAt time k) (seedAt time (k + 1)) (seedAt time (k + M)) := by
  rw [predictSeed, toUInt64_seedAt, toUInt64_seedAt, toUInt64_seedAt, predict,
    untemper_temper (fits32_words _ _), untemper_temper (fits32_words _ _),
    untemper_temper (fits32_words _ _), seedAt]
  simp only [← Nat.add_assoc]
  rw [words_add]

/-- What was drawn is the beginning of the numbers, and what was sent a part of what was
drawn. -/
structure SeededServer.Ok (time : UInt64) (s : SeededServer) : Prop where
  reads : Reads (words time) (N + s.drawn.length) s.generator
  drawn : s.drawn = (List.range s.drawn.length).map (seedAt time)
  challenges : ∃ seeds : List UInt32, s.challenges = seeds.map authChallenge ∧ seeds.Sublist s.drawn

variable {sha hmac} {time : UInt64} {s s' : SeededServer}

/-- What `open` does to the sockets: it adds one that has sent its seed, or none. -/
theorem Server.conns_of_accept {s s' : Server} {f : Start} {registered : Bool}
    (h : s.accept f registered = some s') :
    s'.conns = s.conns ∨ s'.conns = s.conns ++ [Conn.init f] := by
  rw [Server.accept] at h
  split at h
  · obtain ⟨service, -, h⟩ := Option.bind_eq_some_iff.mp h
    exact Or.inl (by rw [← Option.some.inj h])
  · obtain ⟨service, -, h⟩ := Option.bind_eq_some_iff.mp h
    split at h
    · exact Or.inr (by rw [← Option.some.inj h])
    · obtain ⟨service', -, h⟩ := Option.bind_eq_some_iff.mp h
      exact Or.inl (by rw [← Option.some.inj h])

theorem SeededServer.Ok.accept (h : s.Ok time) {f : Start} {registered : Bool}
    (hstep : s.accept f registered = some s') : s'.Ok time := by
  obtain ⟨g, hg, hreads⟩ := h.reads.genrandInt32 (words_add time)
  have hdraw : urand32 s.generator = some (seedAt time s.drawn.length, g) := by
    rw [urand32, hg]
    rfl
  rw [SeededServer.accept, hdraw, Option.bind_eq_bind, Option.bind_some] at hstep
  obtain ⟨server, hserver, hstep⟩ := Option.bind_eq_some_iff.mp hstep
  obtain rfl := Option.some.inj hstep
  have hlen : (s.drawn ++ [seedAt time s.drawn.length]).length = s.drawn.length + 1 := by
    rw [List.length_append, List.length_singleton]
  refine ⟨?_, ?_, ?_⟩
  · exact (congrArg (fun n => Reads (words time) (N + n) g) hlen).mpr hreads
  · dsimp only
    rw [hlen, List.range_succ, List.map_append, ← h.drawn]
    rfl
  · obtain ⟨seeds, hseeds, hsub⟩ := h.challenges
    rcases Server.conns_of_accept hserver with heq | heq <;> dsimp only <;> rw [heq]
    · refine ⟨seeds, ?_, hsub.trans (List.sublist_append_left _ _)⟩
      rw [List.drop_length, List.flatMap_nil, List.append_nil, hseeds]
    · refine ⟨seeds ++ [seedAt time s.drawn.length], ?_, hsub.append_right _⟩
      rw [List.drop_left, hseeds, List.map_append]
      rfl

theorem SeededServer.Ok.step (h : s.Ok time) {e : ServerEvent}
    (hstep : s.step sha hmac e = some s') : s'.Ok time := by
  cases e with
  | accept f registered => exact h.accept hstep
  | conn i e =>
    obtain ⟨server, -, rfl⟩ := Option.map_eq_some_iff.mp hstep
    exact ⟨h.reads, h.drawn, h.challenges⟩

theorem SeededServer.ok_init (service : ProxyService) (mt : Vector UInt64 N) (time : UInt64) :
    (init service mt time).Ok time :=
  ⟨reads_initGenrand _ time, rfl, [], rfl, List.Sublist.refl _⟩

/-- **Seeds can be told in advance.** In every run of the daemon, whatever the time at its
start, the seeds that clients read out of their challenges are among those that were drawn, in
their order – all of them, where every client was admitted – and of those each from the 625th
on is the same function of three that were drawn before it. -/
theorem seeds_predicted {service : ProxyService} {mt : Vector UInt64 N} {es : List ServerEvent}
    (hrun : seededRun sha hmac service mt time es = some s) :
    ∃ seeds : List UInt32, s.challenges.map challengeSeed = seeds.map some ∧ seeds.Sublist s.drawn ∧
      (s.challenges.length = s.drawn.length → seeds = s.drawn) ∧
      ∀ k, k + N < s.drawn.length →
        s.drawn.getD (k + N) 0 =
          predictSeed (s.drawn.getD k 0) (s.drawn.getD (k + 1) 0) (s.drawn.getD (k + M) 0) := by
  obtain ⟨-, hdrawn, seeds, hseeds, hsub⟩ :=
    Runs.run_invariant (fun _ _ _ h hstep => SeededServer.Ok.step h hstep)
      (SeededServer.ok_init service mt time) hrun
  refine ⟨seeds, ?_, hsub, ?_, ?_⟩
  · rw [hseeds, List.map_map]
    exact List.map_congr_left fun seed _ => challengeSeed_authChallenge seed
  · intro hlen
    rw [hseeds, List.length_map] at hlen
    exact hsub.eq_of_length hlen
  · intro k hk
    have hget : ∀ i, i ≤ k + N → s.drawn.getD i 0 = seedAt time i := by
      intro i hi
      rw [hdrawn, getD_map_range _ (Nat.lt_of_le_of_lt hi hk)]
    rw [hget _ (Nat.le_refl _), hget k (Nat.le_add_right _ _),
      hget (k + 1) (Nat.add_le_add_left (by decide) _),
      hget (k + M) (Nat.add_le_add_left (by decide) _), seedAt_add]

/-- A proxy that one client has connected to. -/
theorem seeds_predicted_one :
    ∃ s, seededRun (fun _ => Bytes.zero 20) (fun _ _ => Bytes.zero 20)
        (ProxyService.start 10 1 [97]) (Vector.replicate N 0) 5489
        [.accept { seed := 0, id := 0, gmlevel := 0, expansion := 0, clientSeed := 0 } true] =
        some s ∧
      ∃ seeds : List UInt32, s.challenges.map challengeSeed = seeds.map some ∧
        seeds.Sublist s.drawn ∧ (s.challenges.length = s.drawn.length → seeds = s.drawn) ∧
        ∀ k, k + N < s.drawn.length →
          s.drawn.getD (k + N) 0 =
            predictSeed (s.drawn.getD k 0) (s.drawn.getD (k + 1) 0) (s.drawn.getD (k + M) 0) := by
  obtain ⟨g, hg, -⟩ :=
    (reads_initGenrand { mt := Vector.replicate N 0, mti := 0 } 5489).genrandInt32 (words_add 5489)
  have hdraw : urand32 (.new (Vector.replicate N 0) 5489) = some (seedAt 5489 0, g) := by
    rw [urand32, MersenneTwist.new, hg]
    rfl
  have hrun : seededRun (fun _ => Bytes.zero 20) (fun _ _ => Bytes.zero 20)
      (ProxyService.start 10 1 [97]) (Vector.replicate N 0) 5489
      [.accept { seed := 0, id := 0, gmlevel := 0, expansion := 0, clientSeed := 0 } true] =
      SeededServer.step _ _ (.init (ProxyService.start 10 1 [97]) (Vector.replicate N 0) 5489) _ :=
    Runs.run_singleton
  rw [SeededServer.step, SeededServer.accept, SeededServer.init, hdraw] at hrun
  exact ⟨_, hrun, seeds_predicted hrun⟩

end Morfeusz.Proxyd
