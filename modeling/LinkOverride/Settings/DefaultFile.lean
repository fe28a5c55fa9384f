import LinkOverride.Address

/-!
# The first configuration file

What a configuration file holds when it is made for the user.
-/

namespace LinkOverride.Settings

def defaultFileLines : List String :=
  [ "# mac-changer - User Configuration",
    "# Place this file at: ~/.config/mac-changer/config.toml",
    "# Or use a local override: ./.mac-changer.toml",
    "",
    "# Profile to apply when none is given via --profile",
    "# default_profile = \"cafe\"",
    "",
    "[defaults]",
    "# iface = \"eth0\"",
    "address = \"" ++ Address.randomWord ++ "\"",
    "sudo = true",
    "# Seconds to wait for ifconfig; 0 waits forever",
    "timeout = 0",
    "",
    "# Named profiles, use with: mac-changer --profile cafe",
    "[profiles.cafe]",
    "iface = \"wlan0\"",
    "address = \"" ++ Address.randomWord ++ "\"",
    "description = \"Fresh random address on the wireless card\"",
    "",
    "# [profiles.lab]",
    "# iface = \"eth1\"",
    "# address = \"02:00:00:00:00:01\"" ]

def defaultFile : String := String.join (defaultFileLines.map (· ++ "\n"))

end LinkOverride.Settings
