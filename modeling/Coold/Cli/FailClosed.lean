import Coold.Cli.Apply
import Coold.Lib.ShellFaults

/-!
# Failing commands in the scripts of the phases

The scripts that write files are chains (`exists_chain`): every file is written beside its place by a here-document and
moved there by the line after it.  A here-document ends the line it stands on, so a failure before it or in it does not
keep the line after it from moving what lies beside the place: a part of the document, or what an earlier run has left
there.  The script reports the failure and leaves the files alone exactly if nothing lies there (`failsClosed_iff`).
-/

namespace Coold.Cli

open Shell

/-- A file that is written by `heredoc`. -/
def fileOf (path body mode : String) : Doc := ⟨path, "COOLIFY_CLI_EOF", body, some mode⟩

/-- A script that writes files is a chain of files that are kept apart. -/
theorem exists_chain (c : Cmd) (hc : c.script ≠ []) :
    ∃ before docs, c.script = chain before docs ∧ Separate before docs := by
  cases c with
  | installFirewall iface namespaces subnets defaultDeny =>
    let unit : Doc := ⟨Firewall.firewallUnitPath, "COOLIFY_FW_EOF",
      Firewall.firewallServiceUnit iface namespaces subnets defaultDeny, none⟩
    let restart : List Command :=
      [.daemonReload, .enable Firewall.firewallServiceName, .restart Firewall.firewallServiceName]
    cases defaultDeny with
    | true =>
      let scaffold : Doc :=
        ⟨Firewall.bridgeScaffoldPath, "COOLIFY_BR_EOF", Firewall.renderBridgeScaffold subnets, none⟩
      exact ⟨[], [(unit, [.mkdir ["/etc/coolify"]]), (scaffold, restart)], rfl,
        separate_of_lists [Firewall.firewallUnitPath, Firewall.bridgeScaffoldPath]
          (.mkdir ["/etc/coolify"] :: restart) rfl rfl
          (by decide) (by decide) (by decide)⟩
    | false =>
      exact ⟨[], [(unit, [.mkdir ["/etc/coolify"], .rm Firewall.bridgeScaffoldPath] ++ restart)], rfl,
        separate_of_lists [Firewall.firewallUnitPath]
          (.mkdir ["/etc/coolify"] :: .rm Firewall.bridgeScaffoldPath :: restart) rfl rfl
          (by decide) (by decide) (by decide)⟩
  | writeCorrosionConfig cfg gossipTls =>
    cases gossipTls with
    | none =>
      exact ⟨[.mkdir ["/etc/corrosion"]], [(fileOf Corrosion.configPath cfg "0644", [])], rfl,
        separate_of_lists [Corrosion.configPath] [.mkdir ["/etc/corrosion"]] rfl rfl
          (by decide) (by decide) (by decide)⟩
    | some tls =>
      exact ⟨[.mkdir ["/etc/corrosion"], .mkdir [Corrosion.gossipTlsDir]],
        [(fileOf Corrosion.gossipTlsCertPath tls.certPem "0644", []),
          (fileOf Corrosion.gossipTlsKeyPath tls.keyPem "0600", []), (fileOf Corrosion.configPath cfg "0644", [])], rfl,
        separate_of_lists [Corrosion.gossipTlsCertPath, Corrosion.gossipTlsKeyPath, Corrosion.configPath]
          [.mkdir ["/etc/corrosion"], .mkdir [Corrosion.gossipTlsDir]] rfl rfl
          (by decide) (by decide) (by decide)⟩
  | writeCorrosionSchema =>
    exact ⟨[.mkdir ["/etc/corrosion/schemas"]],
      [(fileOf Corrosion.schemaPath Corrosion.coolifySchemaSql "0644", [])], rfl,
      separate_of_lists [Corrosion.schemaPath] [.mkdir ["/etc/corrosion/schemas"]] rfl rfl
        (by decide) (by decide) (by decide)⟩
  | installCorrosionService iface =>
    exact ⟨[], [(fileOf Corrosion.unitPath (Corrosion.serviceUnit iface) "0644",
        [.daemonReload, .enableNow ["corrosion"]])], rfl,
      separate_of_lists [Corrosion.unitPath] [.daemonReload, .enableNow ["corrosion"]] rfl rfl
        (by decide) (by decide) (by decide)⟩
  | installCooldService mgmtIp ns flux fluxTls =>
    let remove : Command := .rm "/etc/systemd/resolved.conf.d/coolify-internal.conf"
    let start : List Command :=
      [.daemonReload, .enableNow [CooldService.meshDnsAnchorService, CooldService.meshDnsResolverService, "coold"]]
    let units : List (Doc × List Command) :=
      [(fileOf CooldService.meshDnsAnchorPath (CooldService.meshDnsAnchorUnit ns) "0644", []),
        (fileOf CooldService.meshDnsResolverPath (CooldService.meshDnsResolverUnit ns) "0644", []),
        (fileOf CooldService.unitPath (CooldService.serviceUnit mgmtIp ns flux) "0644", start)]
    cases fluxTls with
    | none =>
      exact ⟨[.mkdir ["/etc/coolify", "/data/coolify"], remove], units, rfl,
        separate_of_lists [CooldService.meshDnsAnchorPath, CooldService.meshDnsResolverPath, CooldService.unitPath]
          (.mkdir ["/etc/coolify", "/data/coolify"] :: remove :: start) rfl rfl
          (by decide) (by decide) (by decide)⟩
    | some tls =>
      exact ⟨[.mkdir ["/etc/coolify", "/data/coolify"]], (fileOf fluxPinPath tls.certPem "0644", [remove]) :: units, rfl,
        separate_of_lists
          [fluxPinPath, CooldService.meshDnsAnchorPath, CooldService.meshDnsResolverPath, CooldService.unitPath]
          (.mkdir ["/etc/coolify", "/data/coolify"] :: remove :: start) rfl rfl
          (by decide) (by decide) (by decide)⟩
  | _ => exact absurd rfl hc

/-- A script one of whose commands fails reports it and leaves every file as it was or complete, exactly if nothing lies
beside the files that it writes from the failing command on: neither from an earlier run nor from a here-document that is
the failing command itself. -/
theorem failsClosed_iff (doc : String → String → String) (c : Cmd) (h : Host) (f : Fault)
    (hf : f.position < c.script.flatten.length) :
    FailsClosed doc c.script h f ↔ NothingLeft c.script h f := by
  have hc : c.script ≠ [] := by
    intro hnil
    rw [hnil] at hf
    exact absurd hf (Nat.not_lt_zero _)
  obtain ⟨before, docs, hchain, hsep⟩ := exists_chain c hc
  rw [hchain] at hf ⊢
  exact failsClosed_chain_iff hsep hf

/-- A host on which nothing has been written or started. -/
def blankHost : Host := ⟨0, fun _ => none, fun _ => none⟩

/-- On a blank host a directory that cannot be made stops everything. -/
theorem failsClosed_iff_blank : FailsClosed asGiven Cmd.writeCorrosionSchema.script blankHost ⟨0, none⟩ :=
  (failsClosed_iff asGiven .writeCorrosionSchema blankHost ⟨0, none⟩ (by decide)).2
    fun _ _ _ _ _ _ => ⟨rfl, fun _ => rfl⟩

/-- The disk is full while the schema is written: what has been written of it is moved to its place, and the script
reports nothing. -/
theorem failsOpen_full_disk :
    (runFaulty asGiven ⟨1, some "CREATE"⟩ blankHost Cmd.writeCorrosionSchema.script).2 = true ∧
      contentOf (runFaulty asGiven ⟨1, some "CREATE"⟩ blankHost Cmd.writeCorrosionSchema.script).1
        Corrosion.schemaPath = some "CREATE" ∧
      Corrosion.coolifySchemaSql ≠ "CREATE" ∧
      ¬ FailsClosed asGiven Cmd.writeCorrosionSchema.script blankHost ⟨1, some "CREATE"⟩ := by
  have hrun : (runFaulty asGiven ⟨1, some "CREATE"⟩ blankHost Cmd.writeCorrosionSchema.script).2 = true := by
    decide
  refine ⟨hrun, by decide +kernel, by decide +kernel, fun h => ?_⟩
  rw [h.reported] at hrun
  cases hrun

end Coold.Cli
