import TomorrowBot.PrivateStreams
import TomorrowBot.PublicStreams

/-!
# What earlier streams do to the current one

The handlers do not ask which stream an operation belonged to. The private
client takes the abort of an abandoned read for a failure of its new stream,
the public client the abort of an abandoned write.
-/

set_option autoImplicit false

namespace TB.StaleStreams

/-- In a settled run of either client no earlier stream disturbs the current one. -/
theorem undisturbed_of_settled (privateConfig : PrivateWsClient.Config)
    (publicConfig : WsClient.Config) (accounts : List PrivateWsClient.Channel)
    (markets : List WsClient.Channel) (privateRun : List PrivateWsClient.Event)
    (publicRun : List WsClient.Event) :
    (Runs.Meets (PrivateWsClient.step privateConfig) PrivateStreams.Settled
        (PrivateWsClient.start accounts) privateRun →
      Runs.Always (PrivateWsClient.step privateConfig) (PrivateStreams.Undisturbed privateConfig)
        (PrivateWsClient.start accounts) privateRun) ∧
    (Runs.Meets (WsClient.step publicConfig) PublicStreams.Settled (WsClient.start markets)
        publicRun →
      Runs.Always (WsClient.step publicConfig) (PublicStreams.Undisturbed publicConfig)
        (WsClient.start markets) publicRun) :=
  ⟨PrivateStreams.settled_undisturbed privateConfig accounts privateRun,
    PublicStreams.settled_undisturbed publicConfig markets publicRun⟩

section Runs

def privateConfig : PrivateWsClient.Config := ⟨1000, 30000⟩

def orders : PrivateWsClient.Channel := ("USDT-FUTURES", "orders")

def privateLogin (stream : ℕ) : List PrivateWsClient.Event :=
  [.complete ⟨.resolve, stream⟩ .success .other, .complete ⟨.tcpConnect, stream⟩ .success .other,
    .complete ⟨.sslHandshake, stream⟩ .success .other,
    .complete ⟨.wsHandshake, stream⟩ .success .other, .runPosted,
    .complete ⟨.write, stream⟩ .success .other,
    .complete ⟨.read, stream⟩ .success (.event "login"), .runPosted]

def ticker : WsClient.Channel := "\x7b\"channel\":\"ticker\"\x7d"

def publicConfig : WsClient.Config :=
  ⟨1000, 30000, 25, fun channel => if channel = ticker then some "ticker" else none⟩

def publicHandshake (stream : ℕ) : List WsClient.Event :=
  [.complete ⟨.resolve, stream⟩ .success .other 0,
    .complete ⟨.tcpConnect, stream⟩ .success .other 0,
    .complete ⟨.sslHandshake, stream⟩ .success .other 0,
    .complete ⟨.wsHandshake, stream⟩ .success .other 0]

def privateReconnect : List PrivateWsClient.Event :=
  privateLogin 1 ++ [.complete ⟨.write, 1⟩ .success .other, .complete ⟨.read, 1⟩ .failed .other,
    .reconnectExpires] ++ privateLogin 2

def publicReconnect : List WsClient.Event :=
  publicHandshake 1 ++ [.complete ⟨.write, 1⟩ .success .other 0,
    .complete ⟨.read, 1⟩ .failed .other 0, .reconnectExpires] ++ publicHandshake 2

/-- The read fails when the write of the subscription is through. -/
theorem undisturbed_of_settled_read :
    Runs.Always (PrivateWsClient.step privateConfig) (PrivateStreams.Undisturbed privateConfig)
      (PrivateWsClient.start [orders]) privateReconnect ∧
    Runs.Always (WsClient.step publicConfig) (PublicStreams.Undisturbed publicConfig)
      (WsClient.start [ticker]) publicReconnect :=
  (undisturbed_of_settled privateConfig publicConfig [orders] [ticker] privateReconnect
    publicReconnect).imp (fun h => h (by decide +kernel)) (fun h => h (by decide +kernel))

/-- A write fails while the read is pending, or a read while the write is: the next
stream is up when the other one is aborted. -/
theorem stale_abort_reconnects :
    ¬ Runs.Always (PrivateWsClient.step privateConfig) (PrivateStreams.Undisturbed privateConfig)
      (PrivateWsClient.start [orders]) (privateLogin 1 ++
        [.complete ⟨.write, 1⟩ .failed .other, .reconnectExpires] ++ privateLogin 2) ∧
    ¬ Runs.Always (WsClient.step publicConfig) (PublicStreams.Undisturbed publicConfig)
      (WsClient.start [ticker]) (publicHandshake 1 ++
        [.complete ⟨.read, 1⟩ .failed .other 0, .reconnectExpires] ++ publicHandshake 2) := by
  constructor
  · intro h
    have hkept := (Runs.always_last _ h).stale ⟨.read, 1⟩ (by decide +kernel) (by decide +kernel)
      .operationAborted .other
    revert hkept
    decide +kernel
  · intro h
    have hkept := (Runs.always_last _ h).stale ⟨.write, 1⟩ (by decide +kernel) (by decide +kernel)
      .operationAborted .other 0
    revert hkept
    decide +kernel

end Runs

end TB.StaleStreams
